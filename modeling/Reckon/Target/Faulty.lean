/-
  Targets with failures put in.

  A fault makes a capability fail every time, without the target being asked; a refusing
  verifier finds every function ill-formed.
-/
import Reckon.Target.Basic

namespace Reckon

inductive Capability where
  | literal
  | arith (op : Arith)
  | lessThan
  | declare
  | openBody
  | call
  | ret
deriving DecidableEq, Repr

structure Faults where
  failure : Capability → Option TargetError
  /-- Every verification fails. -/
  refuses : Bool

def Faults.none : Faults := ⟨fun _ => .none, false⟩

def Faults.guard {σ α : Type} (faults : Faults) (capability : Capability) (call : Emit σ α) :
    Emit σ α :=
  match faults.failure capability with
  | some e => throw e
  | .none => call

def Target.withFaults {σ V F : Type} (t : Target σ V F) (faults : Faults) : Target σ V F :=
  { t with
    literal := fun v => faults.guard .literal (t.literal v)
    arith := fun op x y => faults.guard (.arith op) (t.arith op x y)
    lessThan := fun x y => faults.guard .lessThan (t.lessThan x y)
    declare := fun name params => faults.guard .declare (t.declare name params)
    openBody := fun f => faults.guard .openBody (t.openBody f)
    call := fun f args => faults.guard .call (t.call f args)
    ret := fun v => faults.guard .ret (t.ret v)
    verify := fun f => if faults.refuses then pure false else t.verify f }

end Reckon
