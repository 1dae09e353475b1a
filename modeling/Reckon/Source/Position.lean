/-
  Places in a source text.

  A position is a byte offset together with the name of the file it counts in, so
  that a diagnostic can be read without the text at hand.  A span is the pair of
  positions around a piece of text, the second one just past its last byte.
-/

namespace Reckon

/-- A byte offset into a named source. -/
structure Position where
  offset : Nat
  file : String
deriving DecidableEq, Repr, Inhabited

/-- The stretch of source between two positions, the end not included. -/
structure Span where
  start : Position
  stop : Position
deriving DecidableEq, Repr, Inhabited

/-- The position of a node that was built by hand and stands in no source. -/
def Position.nowhere : Position := ⟨0, "<null>"⟩

def Span.nowhere : Span := ⟨.nowhere, .nowhere⟩

def Span.within (file : String) (start stop : Nat) : Span :=
  ⟨⟨start, file⟩, ⟨stop, file⟩⟩

/-- The number of bytes that a text takes in UTF-8. -/
def byteLength (text : List Char) : Nat :=
  text.foldr (fun c bytes => c.utf8Size + bytes) 0

@[simp] theorem byteLength_nil : byteLength [] = 0 := rfl

@[simp] theorem byteLength_cons (c : Char) (text : List Char) :
    byteLength (c :: text) = c.utf8Size + byteLength text := rfl

@[simp] theorem byteLength_append (left right : List Char) :
    byteLength (left ++ right) = byteLength left + byteLength right := by
  induction left with
  | nil => simp
  | cons c rest ih => simp [ih, Nat.add_assoc]

end Reckon
