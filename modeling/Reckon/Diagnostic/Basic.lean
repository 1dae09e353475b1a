/-
  Diagnostics.

  A diagnostic is a cause and a position.  The six syntax errors say what was expected
  and carry the text of the token found in its place; the others come from generating
  code or from running it.  The wording, the advice and the name of a diagnostic are
  functions of its cause.
-/
import Reckon.Source.Position
import Reckon.Text.Quoted

namespace Reckon

inductive Expectation where
  | operand
  | closeParen
  | argumentDelimiter
  | functionName
  | prototypeOpenParen
  | prototypeCloseParen
deriving DecidableEq, Repr

inductive Cause where
  | missing (what : Expectation) (found : String)
  | unknownVariable (name : String)
  | invalidOperator (op : Char)
  | unknownFunction (name : String)
  | argumentCount (function : String) (expected received : Nat)
  | prototypeMismatch (function : String) (expected received : Nat)
  | redefinition (function : String)
  | invalidFunction (function : String)
  /-- The target failed for a reason of its own. -/
  | target (message : String)
  | evaluation (message : String)
deriving DecidableEq, Repr

inductive Severity where
  | syntactic
  | semantic
deriving DecidableEq, Repr

namespace Cause

/-- Syntax errors are those of the grammar. -/
def severity : Cause → Severity
  | .missing .. => .syntactic
  | _ => .semantic

def name : Cause → String
  | .missing .operand _ => "UnexpectedToken"
  | .missing .closeParen _ => "ExpectedCloseParen"
  | .missing .argumentDelimiter _ => "ExpectedArgumentDelimiter"
  | .missing .functionName _ => "ExpectedFunctionName"
  | .missing .prototypeOpenParen _ => "ExpectedPrototypeOpenParen"
  | .missing .prototypeCloseParen _ => "ExpectedPrototypeCloseParen"
  | .unknownVariable _ => "UnknownVariable"
  | .invalidOperator _ => "InvalidBinaryOperator"
  | .unknownFunction _ => "UnknownFunction"
  | .argumentCount .. => "IncorrectArgumentCount"
  | .prototypeMismatch .. => "PrototypeMismatch"
  | .redefinition _ => "FunctionRedefinition"
  | .invalidFunction _ => "InvalidFunction"
  | .target _ => "Backend"
  | .evaluation _ => "Evaluation"

def message : Cause → String
  | .missing .operand found =>
    "unknown token when expecting an expression: " ++ Text.quoted found
  | .missing .closeParen found => "expected ')', found " ++ Text.quoted found
  | .missing .argumentDelimiter found =>
    "expected ')' or ',' in argument list, found " ++ Text.quoted found
  | .missing .functionName found =>
    "expected function name in prototype, found " ++ Text.quoted found
  | .missing .prototypeOpenParen found =>
    "expected '(' in prototype, found " ++ Text.quoted found
  | .missing .prototypeCloseParen found =>
    "expected ')' in prototype, found " ++ Text.quoted found
  | .unknownVariable name => "unknown variable " ++ Text.quoted name
  | .invalidOperator op => "invalid binary operator " ++ Text.quotedChar op
  | .unknownFunction name => "unknown function referenced " ++ Text.quoted name
  | .argumentCount function expected received =>
    "incorrect number of arguments passed to " ++ Text.quoted function ++ ": expected " ++
      toString expected ++ ", received " ++ toString received
  | .prototypeMismatch function expected received =>
    "definition of " ++ Text.quoted function ++
      " does not match its declaration: expected " ++ toString expected ++
      " parameters, received " ++ toString received
  | .redefinition function => "function " ++ Text.quoted function ++ " cannot be redefined"
  | .invalidFunction function =>
    "function " ++ Text.quoted function ++ " failed verification"
  | .target message => "backend error: " ++ message
  | .evaluation message => "evaluation error: " ++ message

def tip : Cause → Option String
  | .missing .operand _ => some "Expected a number, an identifier or `(`"
  | .missing .closeParen _ => some "Did you forget a closing `)`?"
  | .missing .argumentDelimiter _ =>
    some "Arguments are separated by `,` and closed with `)`"
  | .missing .functionName _ | .missing .prototypeOpenParen _ => none
  | .missing .prototypeCloseParen _ =>
    some "Parameter names are separated by whitespace, not commas"
  | .unknownVariable name => some ("Variable `" ++ name ++ "` is not bound in this function")
  | .invalidOperator _ => some "Only `+`, `-`, `*` and `<` can be generated"
  | .unknownFunction name =>
    some ("Declare `" ++ name ++ "` with `extern` or `def` before calling it")
  | .argumentCount _ expected received =>
    some ("Expected " ++ toString expected ++ " arguments, received " ++ toString received)
  | .prototypeMismatch _ expected received =>
    some ("Declared with " ++ toString expected ++ " parameters, defined with " ++
      toString received)
  | .redefinition function => some ("Function `" ++ function ++ "` already has a body")
  | .invalidFunction _ | .target _ | .evaluation _ => none

end Cause

structure Diagnostic where
  cause : Cause
  position : Position
deriving DecidableEq, Repr

def Diagnostic.headline (d : Diagnostic) : String :=
  "Error: " ++ d.cause.message ++
    match d.cause.tip with
    | some tip => " (" ++ tip ++ ")"
    | none => ""

/-! ### Failures in another form -/

@[simp] theorem mapError_ok {ε δ α : Type} (f : ε → δ) (a : α) :
    (Except.ok a : Except ε α).mapError f = .ok a := rfl

@[simp] theorem mapError_error {ε δ α : Type} (f : ε → δ) (e : ε) :
    (Except.error e : Except ε α).mapError f = .error (f e) := rfl

end Reckon
