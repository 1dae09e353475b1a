/-
  Assemblies of routines.

  An assembly holds the routines of one module, each with its parameters and at most one
  body: a straight list of instructions that ends in a return.  Every value is assigned
  once.  Values are numbered through the whole assembly and typed, so that a checker can
  tell whether each operand was defined before in the same routine.

  A routine is known by the number of its slot.  Slots are never reused: a routine that
  is given up leaves an empty one behind.
-/
import Reckon.Target.Basic

namespace Reckon

/-- The type of a value: a double, or the outcome of a comparison. -/
inductive ValueType where
  | double
  | bool
deriving DecidableEq, Repr

structure Value where
  id : Nat
  type : ValueType
deriving DecidableEq, Repr

/-- The slot of a routine. -/
abbrev Handle := Nat

inductive Instruction where
  | const (dest : Value) (value : Float)
  | arith (op : Arith) (dest left right : Value)
  /-- The unordered comparison: true where the left value is below the right one or
      either is NaN. -/
  | lessThan (dest left right : Value)
  /-- The double of a comparison, zero or one. -/
  | widen (dest operand : Value)
  | call (dest : Value) (callee : Handle) (args : List Value)
  | ret (value : Value)

namespace Instruction

def dest? : Instruction → Option Value
  | .const dest _ | .arith _ dest _ _ | .lessThan dest _ _ | .widen dest _
  | .call dest _ _ => some dest
  | .ret _ => none

/-- The operands of an instruction, each with the type it has to have. -/
def operands : Instruction → List (Value × ValueType)
  | .const _ _ => []
  | .arith _ _ left right | .lessThan _ left right => [(left, .double), (right, .double)]
  | .widen _ operand => [(operand, .bool)]
  | .call _ _ args => args.map fun arg => (arg, .double)
  | .ret value => [(value, .double)]

end Instruction

/-- A function: its name, its parameters with their values, and its body unless it is
    only declared. -/
structure Routine where
  name : String
  params : List String
  values : List Value
  body : Option (Array Instruction)

structure Assembly where
  moduleName : String
  /-- The routine of each slot; a routine given up leaves nothing. -/
  slots : Array (Option Routine)
  /-- The routine whose body receives the emissions. -/
  insertion : Option Handle
  nextValue : Nat
  /-- How deep calls may nest when code is run. -/
  depthLimit : Nat

namespace Assembly

def empty (moduleName : String) (depthLimit : Nat) : Assembly :=
  { moduleName, slots := #[], insertion := none, nextValue := 0, depthLimit }

def routine? (a : Assembly) (h : Handle) : Option Routine := a.slots[h]?.join

def liveFrom (first : Handle) : List (Option Routine) → List (Handle × Routine)
  | [] => []
  | none :: rest => liveFrom (first + 1) rest
  | some r :: rest => (first, r) :: liveFrom (first + 1) rest

/-- The live routines with their handles, in the order of declaration. -/
def live (a : Assembly) : List (Handle × Routine) := liveFrom 0 a.slots.toList

/-- The first live routine of a name.  Nameless routines are never found. -/
def lookup (a : Assembly) (name : String) : Option Handle :=
  if name.isEmpty then none
  else a.slots.findIdx? fun slot => slot.any fun r => r.name == name

def hasBody (a : Assembly) (h : Handle) : Bool :=
  match a.routine? h with
  | some r => r.body.isSome
  | none => false

/-- The number of parameters; a handle without a routine has none. -/
def arity (a : Assembly) (h : Handle) : Nat :=
  match a.routine? h with
  | some r => r.params.length
  | none => 0

def params (a : Assembly) (h : Handle) : List Value :=
  match a.routine? h with
  | some r => r.values
  | none => []

def setSlot (a : Assembly) (h : Handle) (r : Option Routine) : Assembly :=
  { a with slots := a.slots.setIfInBounds h r }

/-- No more emissions into a routine. -/
def close (a : Assembly) (h : Handle) : Assembly :=
  if a.insertion = some h then { a with insertion := none } else a

def openBody? (a : Assembly) : Option (Handle × Routine × Array Instruction) := do
  let h ← a.insertion
  let r ← a.routine? h
  let body ← r.body
  return (h, r, body)

end Assembly

end Reckon
