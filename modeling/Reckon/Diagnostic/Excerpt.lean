/-
  Diagnostics with the line they are about.

  Below the headline and the file name stands the source line without its leading
  spaces and tabs, its number in front, and under it an arrow that points at the
  reported byte.
-/
import Reckon.Diagnostic.Basic
import Reckon.Source.Line
import Reckon.Text.Blank

namespace Reckon

def isIndent (c : Char) : Bool := c == ' ' || c == '\t'

/-- A bar in the column right of a line number of the given width. -/
def gutter (width : Nat) : List Char := List.replicate (width + 1) ' ' ++ ['|']

def arrow (distance : Nat) : List Char := List.replicate distance '-' ++ ['^']

def Line.shown (line : Line) : List Char :=
  Nat.toDigits 10 line.number ++ [' ', '|', ' '] ++
    Text.trimEnd (line.text.dropWhile isIndent)

/-- The arrow under the line.  A column within the indentation is shown at its end. -/
def Line.pointer (line : Line) : List Char :=
  gutter (Nat.toDigits 10 line.number).length ++
    ' ' :: arrow (line.column - byteLength (line.text.takeWhile isIndent))

def Diagnostic.excerpt (d : Diagnostic) (source : String) : String :=
  let line := lineAt source.toList d.position.offset
  d.headline ++ "\n-> " ++ d.position.file ++ "\n" ++
    String.ofList (gutter (Nat.toDigits 10 line.number).length) ++ "\n" ++
    String.ofList line.shown ++ "\n" ++ String.ofList line.pointer

end Reckon
