/-
  Building an assembly.

  Every operation either does all of its work or fails and leaves the assembly as it
  was: an emission makes sure that a body is open before it takes a number for its
  value.
-/
import Reckon.Assembly.Basic

namespace Reckon.Assembly

def fresh (type : ValueType) : Emit Assembly Value := do
  let a ← get
  set { a with nextValue := a.nextValue + 1 }
  return ⟨a.nextValue, type⟩

def requireOpen : Emit Assembly Unit := do
  if (← get).openBody?.isNone then throw .noOpenBody

def push (i : Instruction) : Emit Assembly Unit := do
  let a ← get
  match a.openBody? with
  | some (h, r, body) => set (a.setSlot h (some { r with body := some (body.push i) }))
  | none => throw .noOpenBody

def emit (type : ValueType) (make : Value → Instruction) : Emit Assembly Value := do
  requireOpen
  let dest ← fresh type
  push (make dest)
  return dest

def emitLiteral (value : Float) : Emit Assembly Value :=
  emit .double (.const · value)

def emitArith (op : Arith) (left right : Value) : Emit Assembly Value :=
  emit .double (.arith op · left right)

/-- Add a comparison and the conversion of its outcome to a double. -/
def emitLessThan (left right : Value) : Emit Assembly Value := do
  let outcome ← emit .bool (.lessThan · left right)
  emit .double (.widen · outcome)

/-- Add a call to a live routine.  The number of arguments is left to the checker. -/
def emitCall (callee : Handle) (args : List Value) : Emit Assembly Value := do
  if ((← get).routine? callee).isNone then throw .staleHandle
  emit .double (.call · callee args)

def emitRet (value : Value) : Emit Assembly Unit := push (.ret value)

/-- Declare a routine in a new slot.  Only names that are not empty have to differ. -/
def declare (name : String) (params : List String) : Emit Assembly Handle := do
  let a ← get
  if (a.lookup name).isSome then throw (.duplicateFunction name)
  let values := (List.range' a.nextValue params.length).map fun id => Value.mk id .double
  let routine : Routine := { name, params, values, body := none }
  set { a with
    slots := a.slots.push (some routine), nextValue := a.nextValue + params.length }
  return a.slots.size

def openBody (h : Handle) : Emit Assembly Unit := do
  let a ← get
  match a.routine? h with
  | none => throw .staleHandle
  | some r =>
    if r.body.isSome then throw (.bodyPresent r.name)
    set { a.setSlot h (some { r with body := some #[] }) with insertion := some h }

/-- Give a routine up.  Its slot stays empty. -/
def abandon (h : Handle) : StateM Assembly Unit :=
  modify fun a => (a.setSlot h none).close h

def discardBody (h : Handle) : StateM Assembly Unit :=
  modify fun a =>
    match a.routine? h with
    | some r => (a.setSlot h (some { r with body := none })).close h
    | none => a.close h

end Reckon.Assembly
