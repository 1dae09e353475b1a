/-
  Targets that keep a record of the calls made to them.

  The record holds, in order, every call that may change the target and every
  verification, each with its answer.  Queries, printing and running are not recorded.
-/
import Reckon.Target.Basic

namespace Reckon

inductive Request (V F : Type) where
  | literal (value : Float)
  | arith (op : Arith) (left right : V)
  | lessThan (left right : V)
  | declare (name : String) (arity : Nat)
  | openBody (f : F)
  | call (f : F) (args : List V)
  | ret (value : V)
  | abandon (f : F)
  | discardBody (f : F)
  | verify (f : F)

inductive Answer (V F : Type) where
  | value (v : V)
  | function (f : F)
  | verdict (valid : Bool)
  | done
  | failed

structure Event (V F : Type) where
  request : Request V F
  answer : Answer V F

/-- A target's state with the record of calls, the first one first. -/
structure Traced (σ V F : Type) where
  inner : σ
  events : List (Event V F)

namespace Traced

variable {σ V F α : Type}

def ofState (inner : σ) : Traced σ V F := ⟨inner, []⟩

def note (request : Request V F) (answer : Answer V F) (s : Traced σ V F) : Traced σ V F :=
  { s with events := s.events ++ [⟨request, answer⟩] }

def inside (call : StateM σ α) : StateM (Traced σ V F) α := fun s =>
  let (a, inner) := call.run s.inner
  (a, { s with inner })

def record (request : Request V F) (answer : α → Answer V F) (call : Emit σ α) :
    Emit (Traced σ V F) α := fun s =>
  let (result, inner) := call.run s.inner
  let noted := match result with
    | .ok a => answer a
    | .error _ => .failed
  (result, note request noted { s with inner })

def recordSure (request : Request V F) (answer : α → Answer V F) (call : StateM σ α) :
    StateM (Traced σ V F) α := fun s =>
  let (a, inner) := call.run s.inner
  (a, note request (answer a) { s with inner })

end Traced

def Target.traced {σ V F : Type} (t : Target σ V F) : Target (Traced σ V F) V F where
  literal v := Traced.record (.literal v) .value (t.literal v)
  arith op x y := Traced.record (.arith op x y) .value (t.arith op x y)
  lessThan x y := Traced.record (.lessThan x y) .value (t.lessThan x y)
  declare name params :=
    Traced.record (.declare name params.length) .function (t.declare name params)
  openBody f := Traced.record (.openBody f) (fun _ => .done) (t.openBody f)
  call f args := Traced.record (.call f args) .value (t.call f args)
  ret v := Traced.record (.ret v) (fun _ => .done) (t.ret v)
  abandon f := Traced.recordSure (.abandon f) (fun _ => .done) (t.abandon f)
  discardBody f := Traced.recordSure (.discardBody f) (fun _ => .done) (t.discardBody f)
  verify f := Traced.recordSure (.verify f) .verdict (t.verify f)
  lookup s name := t.lookup s.inner name
  hasBody s f := t.hasBody s.inner f
  arity s f := t.arity s.inner f
  params s f := t.params s.inner f
  print s f := t.print s.inner f
  evaluate f := Traced.inside (t.evaluate f)

end Reckon
