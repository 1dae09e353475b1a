/-
  Running routines.

  A run follows the instructions of a body and keeps the value of each register.  Calls
  nest up to the assembly's limit, which also counts calls to the host; the text written
  so far is threaded through.  A fault ends the whole run.
-/
import Reckon.Assembly.Basic
import Reckon.Assembly.Host

namespace Reckon

inductive Fault where
  /-- A handle stands for no routine. -/
  | stale
  /-- The routine to be run takes parameters. -/
  | takesParameters (name : String) (count : Nat)
  /-- Calls nested deeper than the limit. -/
  | tooDeep (limit : Nat)
  /-- A register was read that has no value. -/
  | unwritten (id : Nat)
  /-- A body came to its end without a return. -/
  | noReturn (name : String)
  /-- The host has no such function. -/
  | unresolved (name : String) (count : Nat)
deriving DecidableEq, Repr

def Fault.toTargetError : Fault → TargetError
  | .stale => .staleHandle
  | .takesParameters name count =>
    .evaluation ("cannot evaluate " ++ Text.quoted name ++ ": it takes " ++ toString count ++
      " parameters")
  | .tooDeep limit => .evaluation ("maximum call depth of " ++ toString limit ++ " exceeded")
  | .unwritten id => .evaluation ("%" ++ toString id ++ " read before it was written")
  | .noReturn name => .evaluation (Text.quoted name ++ " ended without returning")
  | .unresolved name count =>
    .evaluation ("cannot resolve external function " ++ Text.quoted name ++ " taking " ++
      toString count ++ " arguments")

/-- A piece of a run: it writes to the text threaded through it, and may fault. -/
abbrev Run (α : Type) := StateT String (Except Fault) α

abbrev Registers := List (Nat × Float)

namespace Registers

def read (regs : Registers) (v : Value) : Except Fault Float :=
  match regs.lookup v.id with
  | some x => .ok x
  | none => .error (.unwritten v.id)

def readAll (regs : Registers) : List Value → Except Fault (List Float)
  | [] => .ok []
  | v :: vs => do
    let x ← regs.read v
    let xs ← readAll regs vs
    return x :: xs

def write (regs : Registers) (v : Value) (x : Float) : Registers := (v.id, x) :: regs

def ofArguments (params : List Value) (args : List Float) : Registers :=
  ((params.map (·.id)).zip args).reverse

end Registers

def Arith.apply : Arith → Float → Float → Float
  | .add, x, y => x + y
  | .sub, x, y => x - y
  | .mul, x, y => x * y

/-- The double of a comparison: zero where the left value is at least the right one, and
    one otherwise, NaN included. -/
def lessThanValue (x y : Float) : Float := if x ≥ y then 0 else 1

namespace Assembly

/-- The value of an instruction that defines one, where `call` runs routines. -/
def execute (call : Handle → List Float → Run Float) (regs : Registers) :
    Instruction → Run Float
  | .const _ value => pure value
  | .arith op _ left right => do
    let x ← regs.read left
    let y ← regs.read right
    return op.apply x y
  | .lessThan _ left right => do
    let x ← regs.read left
    let y ← regs.read right
    return lessThanValue x y
  | .widen _ operand => do
    let x ← regs.read operand
    return x
  | .call _ callee args => do
    let xs ← regs.readAll args
    call callee xs
  | .ret value => do
    let x ← regs.read value
    return x

/-- Run instructions up to the first return; `name` is the routine they belong to. -/
def runBody (call : Handle → List Float → Run Float) (name : String) (regs : Registers) :
    List Instruction → Run Float
  | [] => throw (.noReturn name)
  | i :: rest => do
    let x ← execute call regs i
    match i.dest? with
    | none => return x
    | some dest => runBody call name (regs.write dest x) rest

def callHost (name : String) (args : List Float) : Run Float := do
  match Host.call name args with
  | some (x, written) =>
    modify (· ++ written)
    return x
  | none => throw (.unresolved name args.length)

/-- Run the routine of a handle; `depth` is how many more calls may nest, this one
    included. -/
def callRoutine (a : Assembly) : (depth : Nat) → Handle → List Float → Run Float
  | 0, _, _ => throw (.tooDeep a.depthLimit)
  | depth + 1, h, args =>
    match a.routine? h with
    | none => throw .stale
    | some r =>
      match r.body with
      | none => callHost r.name args
      | some body =>
        runBody (a.callRoutine depth) r.name (.ofArguments r.values args) body.toList

def evaluate (a : Assembly) (h : Handle) : Except Fault Evaluation :=
  match a.routine? h with
  | none => .error .stale
  | some r =>
    if r.params.isEmpty then do
      let (value, output) ← (a.callRoutine a.depthLimit h []).run ""
      return ⟨value, output⟩
    else .error (.takesParameters r.name r.params.length)

end Assembly

end Reckon
