/-
  Reading further on.

  Nothing that is read depends on where its tokens stand.  From tokens that stand `n` bytes
  further on the same trees are read, with spans that do, and the same complaints are made
  there.  `Parse.Moves` says so of two ways of reading; it is shown of each building block
  and kept by going on with the next.
-/
import Reckon.Grammar.Progress
import Reckon.Proofs.Token.Joining

namespace Reckon

variable {n : Nat}

/-! ### Trees further on -/

mutual
def Expr.moved (n : Nat) : Expr → Expr
  | .num value s => .num value (s.moved n)
  | .var name s => .var name (s.moved n)
  | .bin op left right s => .bin op (left.moved n) (right.moved n) (s.moved n)
  | .call callee args s => .call callee (Expr.movedList n args) (s.moved n)

def Expr.movedList (n : Nat) : List Expr → List Expr
  | [] => []
  | e :: es => e.moved n :: Expr.movedList n es
end

def Prototype.moved (n : Nat) (p : Prototype) : Prototype := { p with span := p.span.moved n }

def Definition.moved (n : Nat) (d : Definition) : Definition := ⟨d.proto.moved n, d.body.moved n⟩

def Diagnostic.moved (n : Nat) (d : Diagnostic) : Diagnostic :=
  { d with position := d.position.moved n }

@[simp] theorem Expr.span_moved (e : Expr) : (e.moved n).span = e.span.moved n := by
  cases e <;> simp [Expr.moved, Expr.span]

@[simp] theorem Expr.movedList_eq (es : List Expr) : Expr.movedList n es = es.map (Expr.moved n) := by
  induction es with
  | nil => rfl
  | cons e es ih => rw [Expr.movedList, ih, List.map_cons]

theorem Expr.binary_moved (op : Char) (left right : Expr) :
    (Expr.binary op left right).moved n = .binary op (left.moved n) (right.moved n) := by
  simp [Expr.binary, Expr.moved, Span.moved]

/-! ### Chains -/

namespace Link

def moved (n : Nat) (link : Link) : Link := { link with operand := link.operand.moved n }

theorem close_moved (bound : Strength) (waiting : List Link) (right : Expr) :
    close bound (waiting.map (moved n)) (right.moved n) =
      ((close bound waiting right).1.map (moved n), (close bound waiting right).2.moved n) := by
  induction waiting generalizing right with
  | nil => rfl
  | cons link waiting ih =>
    simp only [List.map_cons, close]
    have strength : (link.moved n).strength = link.strength := rfl
    rw [strength]
    split
    · rw [← ih, Expr.binary_moved]
      rfl
    · rfl

theorem closeAll_moved (waiting : List Link) (right : Expr) :
    closeAll (waiting.map (moved n)) (right.moved n) = (closeAll waiting right).moved n := by
  induction waiting generalizing right with
  | nil => rfl
  | cons link waiting ih =>
    rw [List.map_cons, closeAll, closeAll, ← ih, Expr.binary_moved]
    rfl

theorem push_moved (waiting : List Link) (link : Link) :
    push (waiting.map (moved n)) (link.moved n) = (push waiting link).map (moved n) := by
  have closed : close (link.moved n).strength (waiting.map (moved n)) (link.moved n).operand =
      ((close link.strength waiting link.operand).1.map (moved n),
        (close link.strength waiting link.operand).2.moved n) :=
    close_moved link.strength waiting link.operand
  unfold push
  rw [closed]
  rfl

theorem tree_moved (links : List Link) (last : Expr) :
    tree (links.map (moved n)) (last.moved n) = (tree links last).moved n := by
  have folded : ∀ waiting, (links.map (moved n)).foldl push (waiting.map (moved n)) =
      (links.foldl push waiting).map (moved n) := by
    induction links with
    | nil => exact fun _ => rfl
    | cons link links ih =>
      intro waiting
      rw [List.map_cons, List.foldl_cons, push_moved, ih, List.foldl_cons]
  rw [tree, tree, ← closeAll_moved, ← folded]
  rfl

end Link

/-! ### States of the reader -/

def Bracket.moved (n : Nat) : Bracket → Bracket
  | .group links => .group (links.map (Link.moved n))
  | .call links name args => .call (links.map (Link.moved n)) (name.moved n) (args.map (Expr.moved n))

def Stage.moved (n : Nat) : Stage → Stage
  | .operand => .operand
  | .name token => .name (token.moved n)
  | .arguments token => .arguments (token.moved n)
  | .read e => .read (e.moved n)

namespace Reader

def moved (n : Nat) (r : Reader) : Reader :=
  ⟨r.brackets.map (Bracket.moved n), r.links.map (Link.moved n), r.stage.moved n⟩

theorem kind_moved (t : Token) : (t.moved n).kind = t.kind := rfl

theorem shiftOperand_moved (brackets : List Bracket) (links : List Link) (t : Token) :
    shiftOperand (brackets.map (Bracket.moved n)) (links.map (Link.moved n)) (t.moved n) =
      (shiftOperand brackets links t).map (moved n) := by
  unfold shiftOperand
  rw [kind_moved]
  split <;> rfl

theorem operatorHere_moved (g : Reading) (brackets : List Bracket) (kind : TokenKind) :
    g.operatorHere (brackets.map (Bracket.moved n)) kind = g.operatorHere brackets kind := by
  cases brackets <;> rfl

theorem callExpr_moved (name : Token) (args : List Expr) (close : Token) :
    (callExpr name args close).moved n =
      callExpr (name.moved n) (args.map (Expr.moved n)) (close.moved n) := by
  simp only [callExpr, Expr.moved, Expr.movedList_eq]
  rfl

theorem shiftAfter_moved (g : Reading) (brackets : List Bracket) (links : List Link)
    (operand : Expr) (t : Token) :
    shiftAfter g (brackets.map (Bracket.moved n)) (links.map (Link.moved n)) (operand.moved n)
        (t.moved n) = (shiftAfter g brackets links operand t).map (moved n) := by
  unfold shiftAfter
  rw [kind_moved, operatorHere_moved, ← List.map_reverse, Link.tree_moved]
  split
  · rfl
  · rcases brackets with _ | ⟨outer | ⟨outer, name, args⟩, rest⟩
    · rfl
    · simp only [List.map_cons, Bracket.moved]
      split <;> rfl
    · simp only [List.map_cons, Bracket.moved]
      split
      · simp [moved, Stage.moved, callExpr_moved]
      · split
        · simp [moved, Stage.moved, Bracket.moved]
        · rfl

theorem shift_moved (g : Reading) (r : Reader) (t : Token) :
    (r.moved n).shift g (t.moved n) = (r.shift g t).map (moved n) := by
  obtain ⟨brackets, links, stage⟩ := r
  cases stage with
  | operand => exact shiftOperand_moved brackets links t
  | name name =>
    have after := shiftAfter_moved (n := n) g brackets links (.var name.text name.span) t
    simp only [moved, Stage.moved, shift]
    by_cases opens : t.kind = .char '('
    · rw [if_pos opens, if_pos ((kind_moved t).trans opens)]
      rfl
    · rw [if_neg opens, if_neg (mt (kind_moved t).symm.trans opens)]
      exact after
  | arguments name =>
    have first := shiftOperand_moved (n := n) (.call links name [] :: brackets) [] t
    simp only [moved, Stage.moved, shift]
    by_cases closes : t.kind = .char ')'
    · rw [if_pos closes, if_pos ((kind_moved t).trans closes)]
      simp [moved, Stage.moved, callExpr_moved]
    · rw [if_neg closes, if_neg (mt (kind_moved t).symm.trans closes)]
      exact first
  | read operand => exact shiftAfter_moved g brackets links operand t

theorem settle_moved (r : Reader) : (r.moved n).settle = r.settle.map (Expr.moved n) := by
  have after : ∀ brackets links operand,
      settleAfter (brackets.map (Bracket.moved n)) (links.map (Link.moved n))
        (Expr.moved n operand) = (settleAfter brackets links operand).map (Expr.moved n) := by
    intro brackets links operand
    rcases brackets with _ | ⟨_ | _, rest⟩
    · simp [settleAfter, ← List.map_reverse, Link.tree_moved, Except.map]
    · rfl
    · rfl
  obtain ⟨brackets, links, stage⟩ := r
  cases stage with
  | operand => rfl
  | arguments name => rfl
  | name name => exact after brackets links (.var name.text name.span)
  | read operand => exact after brackets links operand

theorem run_moved (g : Reading) (r : Reader) (tokens : List Token) :
    (r.moved n).run g (tokens.map (Token.moved n)) =
      ((r.run g tokens).1.moved n, (r.run g tokens).2.map (Token.moved n)) := by
  induction tokens generalizing r with
  | nil => rfl
  | cons t rest ih =>
    simp only [List.map_cons, run, shift_moved]
    cases r.shift g t with
    | none => rfl
    | some r' => exact ih r'

end Reader

theorem takeNames_moved (tokens : List Token) :
    takeNames (tokens.map (Token.moved n)) =
      ((takeNames tokens).1, (takeNames tokens).2.map (Token.moved n)) := by
  induction tokens with
  | nil => rfl
  | cons t rest ih =>
    simp only [List.map_cons, takeNames, ih]
    by_cases identifier : t.kind = .identifier
    · rw [if_pos identifier, if_pos ((Reader.kind_moved t).trans identifier)]
      rfl
    · rw [if_neg identifier, if_neg (mt (Reader.kind_moved t).symm.trans identifier)]
      rfl

/-! ### Reading -/

namespace Cursor

def moved (n : Nat) (c : Cursor) : Cursor :=
  ⟨c.ahead.map (Token.moved n), c.final.moved n, c.final_kind⟩

@[simp] theorem current_moved (c : Cursor) : (c.moved n).current = c.current.moved n := by
  unfold current moved
  cases c.ahead <;> rfl

@[simp] theorem kind_moved (c : Cursor) : (c.moved n).kind = c.kind := by
  rw [kind, current_moved]
  rfl

theorem advance_moved (c : Cursor) : (c.moved n).advance = c.advance.moved n := by
  simp [advance, moved]

theorem complaint_moved (c : Cursor) (what : Expectation) :
    (c.moved n).complaint what = (c.complaint what).moved n := by
  simp only [complaint, position, current_moved]
  rfl

end Cursor

namespace Parse

variable {α α' β β' : Type}

def movedResult (n : Nat) (f : α → β) (done : Except Diagnostic α × Cursor) :
    Except Diagnostic β × Cursor :=
  ((done.1.map f).mapError (Diagnostic.moved n), done.2.moved n)

def Moves (n : Nat) (f : α → β) (p : Parse α) (q : Parse β) : Prop :=
  ∀ c, q.outcome (c.moved n) = movedResult n f (p.outcome c)

theorem Moves.bind {f : α → α'} {g : β → β'} {p : Parse α} {p' : Parse α'}
    {k : α → Parse β} {k' : α' → Parse β'} (first : Moves n f p p')
    (second : ∀ a, Moves n g (k a) (k' (f a))) : Moves n g (p >>= k) (p' >>= k') := by
  intro c
  rw [outcome_bind, outcome_bind, first c]
  rcases p.outcome c with ⟨d | a, c'⟩
  · rfl
  · exact second a c'

theorem moves_pure (f : α → β) (a : α) : Moves n f (pure a) (pure (f a)) := fun _ => rfl

theorem moves_next : Moves n (Token.moved n) next next := by
  intro c
  rw [outcome_next, outcome_next, Cursor.current_moved, Cursor.advance_moved]
  rfl

theorem moves_expect (kind : TokenKind) (what : Expectation) :
    Moves n (Token.moved n) (expect kind what) (expect kind what) := by
  intro c
  rw [outcome_expect, outcome_expect, Cursor.kind_moved]
  by_cases here : c.kind = kind
  · rw [if_pos here, if_pos here, Cursor.current_moved, Cursor.advance_moved]
    rfl
  · rw [if_neg here, if_neg here, Cursor.complaint_moved]
    rfl

theorem moves_names : Moves n id names names := by
  intro c
  have taken := takeNames_moved (n := n) c.ahead
  rw [outcome_names, outcome_names]
  simp only [Cursor.moved, taken]
  rfl

theorem moves_prototype : Moves n (Prototype.moved n) prototype prototype :=
  (moves_expect _ _).bind fun _ => (moves_expect _ _).bind fun _ =>
    moves_names.bind fun _ => (moves_expect _ _).bind fun _ => moves_pure _ _

theorem moves_read (g : Reading) (r : Reader) :
    Moves n (Expr.moved n) (r.read g) ((r.moved n).read g) := by
  intro c
  have ran := Reader.run_moved (n := n) g r c.ahead
  rw [outcome_read, outcome_read]
  simp only [Cursor.moved, ran, Reader.settle_moved]
  cases (r.run g c.ahead).1.settle with
  | ok e => rfl
  | error what =>
    have complaint := Cursor.complaint_moved (n := n) { c with ahead := (r.run g c.ahead).2 } what
    simp only [Except.map, mapError_error, movedResult, ← complaint]
    rfl

theorem moves_expression (table : OperatorTable) :
    Moves n (Expr.moved n) (expression table) (expression table) :=
  moves_read _ Reader.start

theorem moves_topLevel (table : OperatorTable) :
    Moves n (Definition.moved n) (topLevel table) (topLevel table) := by
  refine (moves_expression table).bind fun body => ?_
  have moved := moves_pure (n := n) (Definition.moved n) (.anonymous body)
  rwa [Definition.moved, Definition.anonymous, Prototype.moved, Prototype.anonymous,
    ← Expr.span_moved] at moved

theorem moves_external : Moves n (Prototype.moved n) external external :=
  moves_next.bind fun _ => moves_prototype

theorem moves_definition (table : OperatorTable) :
    Moves n (Definition.moved n) (definition table) (definition table) :=
  moves_next.bind fun _ => moves_prototype.bind fun _ =>
    (moves_expression table).bind fun _ => moves_pure _ _

end Parse

end Reckon
