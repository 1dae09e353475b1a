/-
  The program as a function.

  Given its arguments and what it reads, the program answers with an exit code and the
  text on its two outputs.  Reports of failures go to the error output; they do not
  change the exit code.
-/
import Reckon.Assembly.Target
import Reckon.CommandLine.Arguments
import Reckon.CommandLine.Directory
import Reckon.Session.Report

namespace Reckon.CommandLine

structure Exit where
  code : Nat
  out : String
  err : String

def versionText : String := "toy 0.1.0\n"

def unlines (lines : List String) : String := String.join (lines.map (· ++ "\n"))

def process (arguments : Arguments) (source file : String) : Exit :=
  let settings := arguments.settings
  let assembly := Assembly.empty settings.moduleName settings.depthLimit
  let session : Session Assembly Value := .ofSource source file assembly settings
  let reports := (session.run Assembly.target).reports
  let textsOf (failure : Bool) : List String :=
    (reports.filter fun report => report.failure == failure).map (·.text)
  { code := 0, out := unlines (textsOf false), err := unlines (textsOf true) }

def unreadable (what : String) (failure : ReadFailure) : Exit :=
  { code := 1
    out := ""
    err := "Error: failed to read " ++ what ++ "\n\nCaused by:\n    " ++ failure.message ++
      "\n" }

def decode (bytes : ByteArray) : Except ReadFailure String :=
  match String.fromUTF8? bytes with
  | some text => .ok text
  | none => .error .notText

def processFile (arguments : Arguments) (path : String)
    (content : Except ReadFailure ByteArray) : Exit :=
  match content.bind decode with
  | .ok source => process arguments source (fileName path)
  | .error failure => unreadable path failure

def processInput (arguments : Arguments) (content : ByteArray) : Exit :=
  match decode content with
  | .ok source => process arguments source unnamedFile
  | .error failure => unreadable "standard input" failure

def run (arguments : List String) (directory : Directory) (input : ByteArray) :
    Except Unusable Exit :=
  match readArguments arguments with
  | .error e => .error e
  | .ok .version => .ok { code := 0, out := versionText, err := "" }
  | .ok (.process a) =>
    .ok <| match a.file with
      | some path => processFile a path (directory.read path)
      | none => processInput a input

end Reckon.CommandLine
