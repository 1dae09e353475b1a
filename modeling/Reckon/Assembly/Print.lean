/-
  Assemblies as text.

  A parameter is written by its name, a repeated name with the number of its value
  behind it; every other value is written by its number.  A routine without a name is
  written by its handle.
-/
import Reckon.Assembly.Basic
import Reckon.Decimal.Layout

namespace Reckon

/-- Constants keep a point, and very large and very small ones have an exponent. -/
def constantStyle : Decimal.Style := ⟨some (-4, 16), true⟩

namespace Routine

/-- The written names of parameters, those in `seen` being taken. -/
def distinctNames (seen : List String) : List (Value × String) → List (Value × String)
  | [] => []
  | (v, name) :: rest =>
    (v, if seen.contains name then name ++ toString v.id else name) ::
      distinctNames (name :: seen) rest

def paramNames (r : Routine) : List (Value × String) :=
  distinctNames [] (r.values.zip r.params)

def valueName (names : List (Value × String)) (v : Value) : String :=
  match names.lookup v with
  | some name => "%" ++ name
  | none => "%" ++ toString v.id

def label (h : Handle) (r : Routine) : String :=
  "@" ++ if r.name.isEmpty then toString h else r.name

def signature (names : List (Value × String)) : String :=
  ", ".intercalate (names.map fun entry => "double %" ++ entry.2)

end Routine

def Arith.mnemonic : Arith → String
  | .add => "fadd"
  | .sub => "fsub"
  | .mul => "fmul"

def entryLabel : String := "entry"

namespace Assembly

def calleeLabel (a : Assembly) (h : Handle) : String :=
  match a.routine? h with
  | some target => target.label h
  | none => "@<abandoned>"

def printInstruction (a : Assembly) (names : List (Value × String)) (i : Instruction) :
    String :=
  let name := Routine.valueName names
  match i with
  | .const dest value => name dest ++ " = const double " ++ constantStyle.write value
  | .arith op dest left right =>
    name dest ++ " = " ++ op.mnemonic ++ " double " ++ name left ++ ", " ++ name right
  | .lessThan dest left right =>
    name dest ++ " = fcmp ult double " ++ name left ++ ", " ++ name right
  | .widen dest operand => name dest ++ " = uitofp i1 " ++ name operand ++ " to double"
  | .call dest callee args =>
    name dest ++ " = call double " ++ a.calleeLabel callee ++ "(" ++
      ", ".intercalate (args.map fun arg => "double " ++ name arg) ++ ")"
  | .ret value => "ret double " ++ name value

/-- A live routine as text; a handle without one has no text. -/
def print (a : Assembly) (h : Handle) : String :=
  match a.routine? h with
  | none => ""
  | some r =>
    let names := r.paramNames
    let head := "double " ++ r.label h ++ "(" ++ Routine.signature names ++ ")"
    match r.body with
    | none => "declare " ++ head
    | some body =>
      "define " ++ head ++ " \x7b\n" ++ entryLabel ++ ":\n" ++
        String.join (body.toList.map fun i => "  " ++ a.printInstruction names i ++ "\n") ++ "\x7d"

def printAll (a : Assembly) : String :=
  "; ModuleID = '" ++ a.moduleName ++ "'\n" ++
    String.join (a.live.map fun entry => "\n" ++ a.print entry.1 ++ "\n")

end Assembly

end Reckon
