/-
  The assembly as a target of code generation.
-/
import Reckon.Assembly.Emit
import Reckon.Assembly.Check
import Reckon.Assembly.Print
import Reckon.Assembly.Eval

namespace Reckon.Assembly

def evaluated (h : Handle) : Emit Assembly (Option Evaluation) := do
  match (← get).evaluate h with
  | .ok evaluation => return some evaluation
  | .error fault => throw fault.toTargetError

def target : Target Assembly Value Handle where
  literal := emitLiteral
  arith := emitArith
  lessThan := emitLessThan
  declare := declare
  openBody := openBody
  call := emitCall
  ret := emitRet
  abandon := abandon
  discardBody := discardBody
  verify h := do return (← get).check h
  lookup := lookup
  hasBody := hasBody
  arity := arity
  params := params
  print := print
  evaluate := evaluated

end Reckon.Assembly
