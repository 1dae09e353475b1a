/-
  Code generation.

  Generation walks a tree from left to right and calls the target once for each literal,
  operation and call.  The first error ends it; a definition that fails takes back what
  it made: a function that was declared before loses its body again, any other is given
  up altogether.
-/
import Reckon.Diagnostic.Basic
import Reckon.Expr.Basic
import Reckon.Generate.Scope
import Reckon.Target.Basic

namespace Reckon

structure Generator (σ V : Type) where
  target : σ
  scope : Scope V

abbrev Gen (σ V α : Type) := ExceptT Diagnostic (StateM (Generator σ V)) α

def TargetError.toCause : TargetError → Cause
  | .evaluation text => .evaluation text
  | e => .target e.message

inductive Operation where
  | arith (op : Arith)
  | lessThan
deriving DecidableEq, Repr

def Operation.ofChar? : Char → Option Operation
  | '+' => some (.arith .add)
  | '-' => some (.arith .sub)
  | '*' => some (.arith .mul)
  | '<' => some .lessThan
  | _ => none

namespace Gen

variable {σ V F α : Type}

def outcome (generate : Gen σ V α) (g : Generator σ V) :
    Except Diagnostic α × Generator σ V :=
  generate.run.run g

/-- A call to the target, made for the construct at a position. -/
def ask (p : Position) (call : Emit σ α) : Gen σ V α := fun g =>
  let (result, target) := call.run g.target
  (match result with
    | .ok a => .ok a
    | .error e => .error ⟨e.toCause, p⟩,
   { g with target })

def tell (call : StateM σ α) : Gen σ V α := fun g =>
  let (a, target) := call.run g.target
  (.ok a, { g with target })

def attempt (generate : Gen σ V α) : Gen σ V (Except Diagnostic α) := fun g =>
  let (result, g) := generate.run g
  (.ok result, g)

def targetState : Gen σ V σ := do return (← get).target

def setScope (scope : Scope V) : Gen σ V Unit := modify fun g => { g with scope }

def emitOperation (t : Target σ V F) (x y : V) : Operation → Emit σ V
  | .arith op => t.arith op x y
  | .lessThan => t.lessThan x y

mutual
def expression (t : Target σ V F) : Expr → Gen σ V V
  | .num value s => ask s.start (t.literal value)
  | .var name s => do
    match (← get).scope.value? name with
    | some v => return v
    | none => throw ⟨.unknownVariable name, s.start⟩
  | .bin op left right s => do
    let x ← expression t left
    let y ← expression t right
    match Operation.ofChar? op with
    | some operation => ask s.start (emitOperation t x y operation)
    | none => throw ⟨.invalidOperator op, s.start⟩
  | .call callee args s => do
    let state ← targetState
    match t.lookup state callee with
    | none => throw ⟨.unknownFunction callee, s.start⟩
    | some f =>
      if t.arity state f = args.length then
        let values ← expressions t args
        ask s.start (t.call f values)
      else throw ⟨.argumentCount callee (t.arity state f) args.length, s.start⟩

def expressions (t : Target σ V F) : List Expr → Gen σ V (List V)
  | [] => return []
  | e :: es => do
    let v ← expression t e
    let vs ← expressions t es
    return v :: vs
end

/-- Declare a function.  One of the same name and number of parameters is taken as it
    is, so a declaration may be repeated and a later definition can complete it. -/
def prototype (t : Target σ V F) (p : Prototype) : Gen σ V F := do
  let state ← targetState
  match t.lookup state p.name with
  | some f =>
    if t.arity state f = p.arity then return f
    else throw ⟨.prototypeMismatch p.name (t.arity state f) p.arity, p.span.start⟩
  | none => ask p.span.start (t.declare p.name p.params)

/-- Generate the body of a declared function: its parameters are bound, its expression
    is returned, and the target verifies the whole. -/
def body (t : Target σ V F) (d : Definition) (f : F) : Gen σ V Unit := do
  let p := d.proto.span.start
  ask p (t.openBody f)
  setScope (.ofParams d.proto.params (t.params (← targetState) f))
  let value ← expression t d.body
  ask p (t.ret value)
  unless ← tell (t.verify f) do
    throw ⟨.invalidFunction d.proto.name, p⟩

/-- Generate a complete function.  A function that has a body cannot get another. -/
def definition (t : Target σ V F) (d : Definition) : Gen σ V F := do
  let declaredBefore := (t.lookup (← targetState) d.proto.name).isSome
  let f ← prototype t d.proto
  if t.hasBody (← targetState) f then
    throw ⟨.redefinition d.proto.name, d.proto.span.start⟩
  let result ← attempt (body t d f)
  setScope []
  match result with
  | .ok () => return f
  | .error e =>
    tell (if declaredBefore then t.discardBody f else t.abandon f)
    throw e

end Gen

end Reckon
