/-
  The meaning of expressions.

  The interpreter gives an expression its value straight from the tree, with no code, no
  registers and no scopes in between.  It knows what every function name means at the
  moment: the parameter names and the body of its definition, or that it is a function of
  the host.  Text that host functions write is threaded through in the order of evaluation.
-/
import Reckon.Expr.Basic
import Reckon.Assembly.Host

namespace Reckon

inductive Meaning where
  /-- A function that is only declared, and so a function of the host. -/
  | external
  /-- A function with the parameter names and the body of its definition. -/
  | defined (params : List String) (body : Expr)

/-- What the names of functions stand for; other names stand for nothing. -/
abbrev Environment := String → Option Meaning

inductive Obstacle where
  /-- A call came to the greatest depth. -/
  | tooDeep (limit : Nat)
  /-- The host has no function of that name and number of arguments. -/
  | unresolved (name : String) (count : Nat)
  /-- The tree means nothing: a name or an operator stands for nothing. -/
  | meaningless
deriving DecidableEq, Repr

/-- Finding a value: text may be written on the way, and it may come to nothing. -/
abbrev Interpretation (α : Type) := StateT String (Except Obstacle) α

def argument? (params : List String) (args : List Float) (name : String) : Option Float :=
  (params.zip args).reverse.lookup name

def hostValue (name : String) (args : List Float) : Interpretation Float := do
  match Host.call name args with
  | some (x, written) =>
    modify (· ++ written)
    return x
  | none => throw (.unresolved name args.length)

namespace Expr

mutual
/-- The value of an expression, where `call` is what calls come to and `bound` the
    values of variables. -/
def value (call : String → List Float → Interpretation Float)
    (bound : String → Option Float) : Expr → Interpretation Float
  | .num x _ => return x
  | .var name _ =>
    match bound name with
    | some x => return x
    | none => throw .meaningless
  | .bin op left right _ => do
    let x ← left.value call bound
    let y ← right.value call bound
    match op with
    | '+' => return x + y
    | '-' => return x - y
    | '*' => return x * y
    | '<' => return if x ≥ y then 0 else 1
    | _ => throw .meaningless
  | .call callee args _ => do
    let xs ← values call bound args
    call callee xs

def values (call : String → List Float → Interpretation Float)
    (bound : String → Option Float) : List Expr → Interpretation (List Float)
  | [] => return []
  | e :: es => do
    let x ← e.value call bound
    let xs ← values call bound es
    return x :: xs
end

end Expr

namespace Environment

/-- A call at `depth` of a function with its arguments.  It fails if that is as deep as
    `limit`; the calls in the function's body are one deeper. -/
def call (env : Environment) (limit depth : Nat) (name : String) (args : List Float) :
    Interpretation Float :=
  if depth < limit then
    match env name with
    | some (.defined params body) =>
      body.value (env.call limit (depth + 1)) (argument? params args)
    | some .external => hostValue name args
    | none => throw .meaningless
  else throw (.tooDeep limit)
termination_by limit - depth

/-- The value of a bare expression, which is itself a call at depth 0, and the text that
    was written. -/
def evaluate (env : Environment) (limit : Nat) (e : Expr) : Except Obstacle (Float × String) :=
  if 0 < limit then (e.value (env.call limit 1) fun _ => none).run ""
  else .error (.tooDeep limit)

def define (env : Environment) (name : String) (meaning : Meaning) : Environment :=
  fun other => if other = name then some meaning else env other

end Environment

end Reckon
