/-
  Expressions, prototypes and definitions.

  An expression is a strict tree and every node knows the span it was read from.  Spans
  play no part in equality, so a tree built by hand equals the one that was read.
-/
import Reckon.Source.Position

namespace Reckon

inductive Expr where
  | num (value : Float) (span : Span)
  | var (name : String) (span : Span)
  | bin (op : Char) (left right : Expr) (span : Span)
  | call (callee : String) (args : List Expr) (span : Span)
deriving Inhabited

namespace Expr

def span : Expr → Span
  | .num _ s | .var _ s | .bin _ _ _ s | .call _ _ s => s

/-- An operation reaches from its left operand to its right one. -/
def binary (op : Char) (left right : Expr) : Expr :=
  .bin op left right ⟨left.span.start, right.span.stop⟩

mutual
/-- Equality of the trees; literals are compared as doubles, so NaN differs from itself
    and the two zeros agree. -/
def same : Expr → Expr → Bool
  | .num v _, .num w _ => v == w
  | .var x _, .var y _ => x == y
  | .bin op l r _, .bin op' l' r' _ => op == op' && l.same l' && r.same r'
  | .call f xs _, .call g ys _ => f == g && sameList xs ys
  | _, _ => false

def sameList : List Expr → List Expr → Bool
  | [], [] => true
  | x :: xs, y :: ys => x.same y && sameList xs ys
  | _, _ => false
end

end Expr

/-- The signature of a function: its name and its parameters in order, repeats kept. -/
structure Prototype where
  name : String
  params : List String
  span : Span
deriving Inhabited

namespace Prototype

def anonymous (span : Span) : Prototype := ⟨"", [], span⟩

def isAnonymous (p : Prototype) : Bool := p.name.isEmpty

def arity (p : Prototype) : Nat := p.params.length

def same (p q : Prototype) : Bool := p.name == q.name && p.params == q.params

end Prototype

structure Definition where
  proto : Prototype
  body : Expr
deriving Inhabited

namespace Definition

/-- A bare expression as a nameless function, to be generated and run once. -/
def anonymous (body : Expr) : Definition := ⟨.anonymous body.span, body⟩

def same (d e : Definition) : Bool := d.proto.same e.proto && d.body.same e.body

end Definition

end Reckon
