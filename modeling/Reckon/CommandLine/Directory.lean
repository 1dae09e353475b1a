/-
  Directories of files.

  A directory holds files under relative paths; the directories on the way to a file
  exist with it, and so do those that the directory itself lies in, up to the root.
  A path is followed part by part, and reading what it leads to gives the bytes of a
  file or the reason why there are none.
-/
import Reckon.Source.Position

namespace Reckon.CommandLine

inductive ReadFailure where
  | missing
  | isDirectory
  | notDirectory
  | nameTooLong
  | notText
deriving DecidableEq, Repr

def ReadFailure.message : ReadFailure → String
  | .missing => "No such file or directory (os error 2)"
  | .isDirectory => "Is a directory (os error 21)"
  | .notDirectory => "Not a directory (os error 20)"
  | .nameTooLong => "File name too long (os error 36)"
  | .notText => "stream did not contain valid UTF-8"

def partLimit : Nat := 255

def pathLimit : Nat := 4095

def pathParts : List Char → List (List Char)
  | [] => [[]]
  | c :: rest =>
    if c = '/' then [] :: pathParts rest
    else
      match pathParts rest with
      | [] => [[c]]
      | part :: parts => (c :: part) :: parts

/-- The name of the file that a path leads to: its last part that is not empty, or the
    whole path where that part is none. -/
def fileName (path : String) : String :=
  let parts := (pathParts path.toList).filter fun part => !part.isEmpty && part != ['.']
  match parts.getLast? with
  | some part => if part = ['.', '.'] then path else String.ofList part
  | none => path

structure Directory where
  files : List (List (List Char) × ByteArray)

namespace Directory

def ofFiles (files : List (String × ByteArray)) : Directory :=
  ⟨files.map fun file =>
    ((pathParts file.1.toList).filter fun part => !part.isEmpty && part != ['.'], file.2)⟩

/-- Where a path has led to: a place in the directory, by the parts on the way from its
    top, or one of the directories that it lies in. -/
inductive Place where
  | inside (parts : List (List Char))
  | above
deriving DecidableEq, Repr

/-- The directory that a place lies in; the root lies in itself. -/
def Place.parent : Place → Place
  | .above => .above
  | .inside parts => if parts.isEmpty then .above else .inside parts.dropLast

def contentAt (d : Directory) : Place → Option ByteArray
  | .above => none
  | .inside parts => d.files.lookup parts

/-- The place under a name in the directory at a place.  What lies beside the directory
    is not known, and its names count as missing. -/
def child (d : Directory) (name : List Char) : Place → Except ReadFailure Place
  | .above => .error .missing
  | .inside parts =>
    let next := parts ++ [name]
    if d.files.any fun file => next.isPrefixOf file.1 then .ok (.inside next)
    else .error .missing

def enter (d : Directory) (place : Place) (part : List Char) : Except ReadFailure Place :=
  if (d.contentAt place).isSome then .error .notDirectory
  else if part.isEmpty || part = ['.'] then .ok place
  else if part = ['.', '.'] then .ok place.parent
  else if partLimit < byteLength part then .error .nameTooLong
  else d.child part place

/-- Where a path starts: at the root after a leading slash, else in the directory. -/
def startOf : List Char → Place
  | '/' :: _ => .above
  | _ => .inside []

def read (d : Directory) (path : String) : Except ReadFailure ByteArray := do
  let text := path.toList
  if pathLimit < byteLength text then throw .nameTooLong
  let place ← (pathParts text).foldlM d.enter (startOf text)
  match d.contentAt place with
  | some content => return content
  | none => throw .isDirectory

end Directory

end Reckon.CommandLine
