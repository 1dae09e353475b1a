/-
  Tokens.

  A token is a kind, the text it was read from and the span of that text.  Only two
  words are reserved; every character that belongs to no word, number, blank or
  comment is a token of its own, whether it means anything or not.
-/
import Reckon.Source.Position
import Reckon.Decimal.Numeral

namespace Reckon

inductive TokenKind where
  /-- The end of the input. -/
  | eof
  | number
  | identifier
  | defKeyword
  | externKeyword
  /-- Any other character, operators and brackets included. -/
  | char (c : Char)
deriving DecidableEq, Repr, Inhabited

/-- The name of a kind; a character stands between single quotes as it is. -/
def TokenKind.render : TokenKind → String
  | .eof => "EOF"
  | .number => "Number"
  | .identifier => "Identifier"
  | .defKeyword => "Def"
  | .externKeyword => "Extern"
  | .char c => String.ofList ['\x27', c, '\x27']

structure Token where
  kind : TokenKind
  text : String
  span : Span
deriving DecidableEq, Repr, Inhabited

namespace Token

/-- The kind, with the text for the two kinds that it does not determine. -/
def render (t : Token) : String :=
  match t.kind with
  | .identifier | .number => t.kind.render ++ " (" ++ t.text ++ ")"
  | kind => kind.render

def number (t : Token) : Float := Decimal.leadingNumber t.text

def endAt (file : String) (offset : Nat) : Token :=
  ⟨.eof, "EOF", .within file offset offset⟩

end Token

end Reckon
