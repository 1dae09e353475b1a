/-
  Checking routines.

  A body is well-formed when it ends in a return and has no other, every operand was
  defined before it as a parameter or a result and has the type its place asks for, and
  every call goes to a live routine with as many parameters as there are arguments.  A
  declaration is well-formed as it stands.
-/
import Reckon.Assembly.Basic

namespace Reckon.Assembly

def operandsFit (known : List Value) (i : Instruction) : Bool :=
  i.operands.all fun operand => known.contains operand.1 && operand.1.type == operand.2

def calleeFits (a : Assembly) : Instruction → Bool
  | .call _ callee args =>
    match a.routine? callee with
    | some target => target.params.length == args.length
    | none => false
  | _ => true

/-- The rest of a body is well-formed, given the values defined before it. -/
def checkBody (a : Assembly) (known : List Value) : List Instruction → Bool
  | [] => false
  | i :: rest =>
    operandsFit known i && a.calleeFits i &&
      match i.dest? with
      | none => rest.isEmpty
      | some dest => a.checkBody (dest :: known) rest

def check (a : Assembly) (h : Handle) : Bool :=
  match a.routine? h with
  | none => false
  | some r =>
    match r.body with
    | none => true
    | some body => a.checkBody r.values body.toList

end Reckon.Assembly
