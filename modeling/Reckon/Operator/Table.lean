/-
  Binary operators and how strongly they bind.

  A table gives some characters a strength.  A character is a binary operator when it
  is ASCII and its strength is positive; the table says nothing about whether code can
  be generated for it.
-/
import Reckon.Token.Basic

namespace Reckon

/-- How strongly an operator binds, as a signed word of 32 bits. -/
abbrev Strength := Int32

structure OperatorTable where
  entries : List (Char × Strength)

namespace OperatorTable

/-- The strength given to a character, whether it makes an operator or not. -/
def get? (t : OperatorTable) (op : Char) : Option Strength := t.entries.lookup op

def set (t : OperatorTable) (op : Char) (strength : Strength) : OperatorTable :=
  ⟨(op, strength) :: t.entries.filter fun entry => entry.1 != op⟩

def extend (t : OperatorTable) (operators : List (Char × Strength)) : OperatorTable :=
  operators.foldl (fun t entry => t.set entry.1 entry.2) t

def standard : OperatorTable := ⟨[('<', 10), ('+', 20), ('-', 20), ('*', 40)]⟩

def agrees (t u : OperatorTable) : Bool :=
  (t.entries ++ u.entries).all fun entry => t.get? entry.1 == u.get? entry.1

def operator? (t : OperatorTable) : TokenKind → Option (Char × Strength)
  | .char c =>
    if c.toNat < 128 then
      match t.get? c with
      | some s => if 0 < s then some (c, s) else none
      | none => none
    else none
  | _ => none

/-- The strength of a token, with -1 for what is no operator. -/
def rank (t : OperatorTable) (kind : TokenKind) : Strength :=
  match t.operator? kind with
  | some (_, s) => s
  | none => -1

end OperatorTable

end Reckon
