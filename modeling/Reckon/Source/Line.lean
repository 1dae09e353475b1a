/-
  The line around a byte offset.

  A text is cut after every newline.  The line of an offset is the piece that holds the
  byte at that offset; an offset at or past the end belongs to the last piece, just
  before its newline.
-/
import Reckon.Source.Position

namespace Reckon

/-- A line of a source: its number from one, its text with the newline, and the byte
    column that is meant in it. -/
structure Line where
  number : Nat
  text : List Char
  column : Nat
deriving DecidableEq, Repr

/-- The pieces of a text, each up to and including a newline; the last one may lack it. -/
def pieces : List Char → List (List Char)
  | [] => []
  | c :: rest =>
    if c = '\n' then [c] :: pieces rest
    else
      match pieces rest with
      | [] => [[c]]
      | piece :: more => (c :: piece) :: more

def withoutNewline (text : List Char) : List Char := text.filter (· ≠ '\n')

/-- Look for the byte at `offset` among the pieces, the first of which has the given
    number; `last` is the answer when there is no such byte. -/
def findLine (last : Line) (number offset : Nat) : List (List Char) → Line
  | [] => last
  | piece :: more =>
    if offset < byteLength piece then ⟨number, piece, offset⟩
    else
      findLine ⟨number, piece, byteLength (withoutNewline piece)⟩ (number + 1)
        (offset - byteLength piece) more

def lineAt (source : List Char) (offset : Nat) : Line :=
  findLine ⟨1, [], 0⟩ 1 offset (pieces source)

end Reckon
