/-
  Chains of operations.

  Between brackets an expression is a flat chain: operands with operators between them.
  The chain becomes a tree by the strengths of the operators, the stronger ones first
  and equal ones from the left.  The tree is built in one pass over the chain, with the
  operations that still wait for their right operand on a stack: an operator first
  closes all that wait and bind at least as tightly as it does.
-/
import Reckon.Expr.Basic
import Reckon.Operator.Table

namespace Reckon

structure Link where
  operand : Expr
  op : Char
  strength : Strength

namespace Link

/-- Give `right` to the waiting operations that bind at least as tightly as `bound`. -/
def close (bound : Strength) : List Link → Expr → List Link × Expr
  | [], right => ([], right)
  | link :: waiting, right =>
    if bound ≤ link.strength then
      close bound waiting (.binary link.op link.operand right)
    else (link :: waiting, right)

def closeAll : List Link → Expr → Expr
  | [], right => right
  | link :: waiting, right => closeAll waiting (.binary link.op link.operand right)

def push (waiting : List Link) (link : Link) : List Link :=
  let (waiting, operand) := close link.strength waiting link.operand
  { link with operand } :: waiting

def tree (links : List Link) (last : Expr) : Expr :=
  closeAll (links.foldl push []) last

end Link

end Reckon
