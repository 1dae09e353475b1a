/-
  Reading expressions.

      expression := operand (operator operand)*
      operand    := number | identifier | call | '(' expression ')'
      call       := identifier '(' (expression (',' expression)*)? ')'

  The reader is an automaton with a stack.  Its state is the stage it has reached in
  the innermost chain of operations and, for every bracket still open, what was read
  before it.  It looks at one token at a time and never goes back: `shift` says how a
  token continues the expression, and where no token does, `settle` says whether the
  expression is complete there or what was expected.

  An operator is tried before a closing bracket and a comma, so a table may make
  operators of them; after an identifier an opening bracket always begins a call.
-/
import Reckon.Grammar.Cursor
import Reckon.Grammar.Chain

namespace Reckon

/-- What an open bracket interrupted.  The links are the latest first. -/
inductive Bracket where
  | group (links : List Link)
  /-- The arguments of a call to `name`, those before the current one already read. -/
  | call (links : List Link) (name : Token) (args : List Expr)

inductive Stage where
  | operand
  /-- An identifier was read, which may turn out to be the name of a call. -/
  | name (token : Token)
  /-- The bracket after the name of a call was read. -/
  | arguments (name : Token)
  | read (operand : Expr)

structure Reader where
  /-- The open brackets, the innermost first. -/
  brackets : List Bracket
  /-- The links of the innermost chain, the latest first. -/
  links : List Link
  stage : Stage

inductive Reach where
  /-- None: a single operand is read. -/
  | operand
  /-- Those that bind at least as tightly as `bound`. -/
  | chain (bound : Strength)

structure Reading where
  table : OperatorTable
  reach : Reach

namespace Reading

/-- The operator, with its strength, that may follow an operand in the innermost chain.
    Within brackets every operator may. -/
def operatorHere (g : Reading) (brackets : List Bracket) (kind : TokenKind) :
    Option (Char × Strength) :=
  match brackets, g.reach with
  | [], .operand => none
  | [], .chain bound => (g.table.operator? kind).filter fun found => decide (bound ≤ found.2)
  | _ :: _, _ => g.table.operator? kind

end Reading

namespace Reader

def start : Reader := ⟨[], [], .operand⟩

def callExpr (name : Token) (args : List Expr) (close : Token) : Expr :=
  .call name.text args ⟨name.span.start, close.span.stop⟩

def shiftOperand (brackets : List Bracket) (links : List Link) (t : Token) :
    Option Reader :=
  match t.kind with
  | .identifier => some ⟨brackets, links, .name t⟩
  | .number => some ⟨brackets, links, .read (.num t.number t.span)⟩
  | .char '(' => some ⟨.group links :: brackets, [], .operand⟩
  | _ => none

/-- How `t` continues after an operand: as an operator, or as the end of what the
    innermost bracket holds. -/
def shiftAfter (g : Reading) (brackets : List Bracket) (links : List Link) (operand : Expr)
    (t : Token) : Option Reader :=
  match g.operatorHere brackets t.kind with
  | some (op, strength) => some ⟨brackets, ⟨operand, op, strength⟩ :: links, .operand⟩
  | none =>
    let whole := Link.tree links.reverse operand
    match brackets with
    | [] => none
    | .group outer :: rest =>
      if t.kind = .char ')' then some ⟨rest, outer, .read whole⟩ else none
    | .call outer name args :: rest =>
      if t.kind = .char ')' then
        some ⟨rest, outer, .read (callExpr name (args ++ [whole]) t)⟩
      else if t.kind = .char ',' then
        some ⟨.call outer name (args ++ [whole]) :: rest, [], .operand⟩
      else none

def shift (g : Reading) (r : Reader) (t : Token) : Option Reader :=
  match r.stage with
  | .operand => shiftOperand r.brackets r.links t
  | .name name =>
    if t.kind = .char '(' then some { r with stage := .arguments name }
    else shiftAfter g r.brackets r.links (.var name.text name.span) t
  | .arguments name =>
    if t.kind = .char ')' then some { r with stage := .read (callExpr name [] t) }
    else shiftOperand (.call r.links name [] :: r.brackets) [] t
  | .read operand => shiftAfter g r.brackets r.links operand t

/-- What stands where an operand was read and no token continued: the whole expression,
    or a bracket that should have been closed. -/
def settleAfter (brackets : List Bracket) (links : List Link) (operand : Expr) :
    Except Expectation Expr :=
  match brackets with
  | [] => .ok (Link.tree links.reverse operand)
  | .group _ :: _ => .error .closeParen
  | .call .. :: _ => .error .argumentDelimiter

def settle (r : Reader) : Except Expectation Expr :=
  match r.stage with
  | .operand | .arguments _ => .error .operand
  | .name name => settleAfter r.brackets r.links (.var name.text name.span)
  | .read operand => settleAfter r.brackets r.links operand

/-- Shift tokens as long as they continue: the last state and the tokens left. -/
def run (g : Reading) (r : Reader) : List Token → Reader × List Token
  | [] => (r, [])
  | t :: rest =>
    match r.shift g t with
    | some r' => r'.run g rest
    | none => (r, t :: rest)

def read (g : Reading) (r : Reader) : Parse Expr := do
  let c ← get
  let (last, left) := r.run g c.ahead
  let c := { c with ahead := left }
  set c
  match last.settle with
  | .ok e => return e
  | .error what => throw (c.complaint what)

end Reader

namespace Parse

def expression (table : OperatorTable) : Parse Expr :=
  Reader.start.read ⟨table, .chain 0⟩

def operand (table : OperatorTable) : Parse Expr :=
  Reader.start.read ⟨table, .operand⟩

/-- The operations that continue `left` with operators of at least the strength
    `bound`. -/
def operations (table : OperatorTable) (bound : Strength) (left : Expr) : Parse Expr :=
  Reader.read ⟨table, .chain bound⟩ ⟨[], [], .read left⟩

/-- The token at hand as a literal, whatever its kind. -/
def literal : Parse Expr := do
  let t ← next
  return .num t.number t.span

/-- A bracketed expression; the token at hand counts as its opening bracket. -/
def group (table : OperatorTable) : Parse Expr := do
  let _ ← next
  Reader.read ⟨table, .operand⟩ ⟨[.group []], [], .operand⟩

/-- A variable or a call; the token at hand counts as its name. -/
def nameOrCall (table : OperatorTable) : Parse Expr := do
  let t ← next
  Reader.read ⟨table, .operand⟩ ⟨[], [], .name t⟩

end Parse

end Reckon
