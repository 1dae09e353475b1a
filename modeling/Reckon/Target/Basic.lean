/-
  Targets of code generation.

  A target is a record of capabilities: emissions into the function body that is open,
  declarations, queries, and the means to take a function or its body back.  Values and
  functions are known by handles that only the target looks into.  The queries depend on
  the target's state alone and do not change it; any of the other capabilities may
  change it, and an emission may fail.
-/
import Reckon.Text.Quoted

namespace Reckon

inductive TargetError where
  /-- No function body is open for emission. -/
  | noOpenBody
  | duplicateFunction (name : String)
  | bodyPresent (name : String)
  /-- The handle stands for no function any more. -/
  | staleHandle
  /-- A failure of the target's own making. -/
  | builder (text : String)
  /-- Running a function failed. -/
  | evaluation (text : String)
deriving DecidableEq, Repr

namespace TargetError

def name : TargetError → String
  | .noOpenBody => "NoInsertPoint"
  | .duplicateFunction _ => "DuplicateFunction"
  | .bodyPresent _ => "AlreadyHasBody"
  | .staleHandle => "StaleFunction"
  | .builder _ => "Builder"
  | .evaluation _ => "Evaluation"

def message : TargetError → String
  | .noOpenBody => "no function body is open for emission"
  | .duplicateFunction name => "function " ++ Text.quoted name ++ " already exists"
  | .bodyPresent name => "function " ++ Text.quoted name ++ " already has a body"
  | .staleHandle => "function handle no longer refers to a function"
  | .builder text | .evaluation text => text

end TargetError

structure Evaluation where
  value : Float
  output : String
deriving Inhabited

inductive Arith where
  | add
  | sub
  | mul
deriving DecidableEq, Repr

abbrev Emit (σ : Type) (α : Type) := ExceptT TargetError (StateM σ) α

/-- What code generation needs from a target with states `σ`, values `V` and function
    handles `F`. -/
structure Target (σ V F : Type) where
  literal : Float → Emit σ V
  arith : Arith → V → V → Emit σ V
  /-- One where the left value is below the right one or either is NaN, else zero. -/
  lessThan : V → V → Emit σ V
  /-- Declare a function with a name and parameters. -/
  declare : String → List String → Emit σ F
  /-- Open the body of a function; later emissions go there. -/
  openBody : F → Emit σ Unit
  call : F → List V → Emit σ V
  ret : V → Emit σ Unit
  /-- Remove a function altogether. -/
  abandon : F → StateM σ Unit
  /-- Drop the body of a function and keep its declaration. -/
  discardBody : F → StateM σ Unit
  verify : F → StateM σ Bool
  /-- The function of a name; a nameless function is never found. -/
  lookup : σ → String → Option F
  hasBody : σ → F → Bool
  arity : σ → F → Nat
  params : σ → F → List V
  print : σ → F → String
  /-- Run a function without parameters, if the target can run code. -/
  evaluate : F → Emit σ (Option Evaluation)

def Target.withoutEvaluation {σ V F : Type} (t : Target σ V F) : Target σ V F :=
  { t with evaluate := fun _ => pure none }

end Reckon
