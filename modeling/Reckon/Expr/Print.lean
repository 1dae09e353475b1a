/-
  Expressions as text.

  Every operation stands in brackets, so the text has one reading whatever the strengths
  of its operators are.  A literal is written with its shortest digits and never with an
  exponent, which the language could not read.
-/
import Reckon.Expr.Basic
import Reckon.Decimal.Layout

namespace Reckon

/-- Literals are written out in full, and a whole number has no point. -/
def literalStyle : Decimal.Style := ⟨none, false⟩

namespace Expr

mutual
def chars : Expr → List Char
  | .num value _ => (literalStyle.write value).toList
  | .var name _ => name.toList
  | .bin op left right _ => '(' :: left.chars ++ [' ', op, ' '] ++ right.chars ++ [')']
  | .call callee args _ => callee.toList ++ '(' :: argChars args ++ [')']

def argChars : List Expr → List Char
  | [] => []
  | arg :: args => arg.chars ++ moreArgChars args

def moreArgChars : List Expr → List Char
  | [] => []
  | arg :: args => [',', ' '] ++ arg.chars ++ moreArgChars args
end

def text (e : Expr) : String := String.ofList e.chars

end Expr

namespace Prototype

def paramChars : List String → List Char
  | [] => []
  | [param] => param.toList
  | param :: params => param.toList ++ ' ' :: paramChars params

def chars (p : Prototype) : List Char :=
  p.name.toList ++ '(' :: paramChars p.params ++ [')']

def text (p : Prototype) : String := String.ofList p.chars

end Prototype

namespace Definition

/-- The characters of a definition; an anonymous one is its body. -/
def chars (d : Definition) : List Char :=
  if d.proto.isAnonymous then d.body.chars
  else "def ".toList ++ d.proto.chars ++ ' ' :: d.body.chars

def text (d : Definition) : String := String.ofList d.chars

end Definition

end Reckon
