/-
  Reading operations by their strengths.

  Reading a chain is reading an operand, then operators and operands in turn.  The reader
  keeps the links of the chain below whatever the operand opens; they are out of sight until
  the operand has ended (`Below.conclude`), and so one round of the chain is an operator and
  what `operand` reads after it (`outcome_chain`).

  From that it follows what a whole chain takes (`Spans`), and that it can as well be read by
  climbing (`Climbs`): an operator that is followed by a stronger one first has the stronger
  ones read, by a climb of its own that begins at the next strength.
-/
import Reckon.Grammar.Progress
import Reckon.Proofs.Grammar.Acceptance
import Reckon.Proofs.Grammar.Grouping

namespace Reckon

/-! ### An operand over the links of a chain -/

namespace Reader

def conclude (g : Reading) (r : Reader) (tokens : List Token) :
    Except Expectation Expr × List Token :=
  ((r.run g tokens).1.settle, (r.run g tokens).2)

variable {table : OperatorTable} {reach : Reach} {base : List Link} {r s : Reader}
variable {t : Token} {e : Expr} {brackets brackets' : List Bracket} {links links' : List Link}

theorem conclude_cons {g : Reading} (shifted : r.shift g t = some s) (rest : List Token) :
    r.conclude g (t :: rest) = s.conclude g rest := by
  simp only [conclude, run, shifted]

theorem conclude_stop {g : Reading} (refused : r.shift g t = none) (rest : List Token) :
    r.conclude g (t :: rest) = (r.settle, t :: rest) := by
  simp only [conclude, run, refused]

/-- The brackets and links on the left are those on the right without the links `base` of
    the outermost chain. -/
inductive Below (base : List Link) :
    List Bracket → List Link → List Bracket → List Link → Prop where
  | outermost : Below base [] [] [] base
  | group {brackets brackets' : List Bracket} {outer outer' : List Link}
    (below : Below base brackets outer brackets' outer') (links : List Link) :
    Below base (.group outer :: brackets) links (.group outer' :: brackets') links
  | call {brackets brackets' : List Bracket} {outer outer' : List Link}
    (below : Below base brackets outer brackets' outer') (links : List Link) (name : Token)
    (args : List Expr) :
    Below base (.call outer name args :: brackets) links
      (.call outer' name args :: brackets') links

structure Over (base : List Link) (r s : Reader) : Prop where
  below : Below base r.brackets r.links s.brackets s.links
  stage : r.stage = s.stage

theorem Below.shiftOperand (below : Below base brackets links brackets' links') (t : Token) :
    Option.Rel (Over base) (shiftOperand brackets links t) (shiftOperand brackets' links' t) := by
  unfold Reader.shiftOperand
  split
  · exact .some ⟨below, rfl⟩
  · exact .some ⟨below, rfl⟩
  · exact .some ⟨.group below [], rfl⟩
  · exact .none

/-- Within brackets the links of the outermost chain make no difference. -/
theorem Below.shiftAfter (below : Below base brackets links brackets' links')
    (inside : brackets ≠ []) (e : Expr) (t : Token) :
    Option.Rel (Over base) (shiftAfter ⟨table, .operand⟩ brackets links e t)
      (shiftAfter ⟨table, reach⟩ brackets' links' e t) := by
  cases below with
  | outermost => exact absurd rfl inside
  | group below links =>
    simp only [Reader.shiftAfter, Reading.operatorHere]
    split
    · exact .some ⟨.group below _, rfl⟩
    · split
      · exact .some ⟨below, rfl⟩
      · exact .none
  | call below links name args =>
    simp only [Reader.shiftAfter, Reading.operatorHere]
    split
    · exact .some ⟨.call below _ name args, rfl⟩
    · split
      · exact .some ⟨below, rfl⟩
      · split
        · exact .some ⟨.call below [] name _, rfl⟩
        · exact .none

theorem Below.settleAfter (below : Below base brackets links brackets' links')
    (inside : brackets ≠ []) (e : Expr) :
    ∃ what, settleAfter brackets links e = .error what ∧
      settleAfter brackets' links' e = .error what := by
  cases below with
  | outermost => exact absurd rfl inside
  | group below links => exact ⟨_, rfl, rfl⟩
  | call below links name args => exact ⟨_, rfl, rfl⟩

/-- Either the operand has ended, or the two readers take the same tokens and are content
    with none of them as the last. -/
theorem Over.cases (stands : Over base r s) (table : OperatorTable) (reach : Reach) :
    (∃ e, r.Ends [] [] e ∧ s.Ends [] base e) ∨
    (∀ t, Option.Rel (Over base) (r.shift ⟨table, .operand⟩ t) (s.shift ⟨table, reach⟩ t)) ∧
      ∃ what, r.settle = .error what ∧ s.settle = .error what := by
  obtain ⟨brackets, links, stage⟩ := r
  obtain ⟨brackets', links', stage'⟩ := s
  obtain ⟨below, rfl⟩ := stands
  cases stage with
  | operand => exact Or.inr ⟨below.shiftOperand, _, rfl, rfl⟩
  | arguments name =>
    refine Or.inr ⟨fun t => ?_, _, rfl, rfl⟩
    simp only [shift]
    split
    · exact .some ⟨below, rfl⟩
    · exact (Below.call below [] name []).shiftOperand t
  | read e =>
    by_cases outermost : brackets = []
    · cases below with
      | outermost => exact Or.inl ⟨e, .read [] [] e, .read [] links' e⟩
      | group => cases outermost
      | call => cases outermost
    · exact Or.inr ⟨below.shiftAfter outermost e, below.settleAfter outermost e⟩
  | name name =>
    by_cases outermost : brackets = []
    · cases below with
      | outermost => exact Or.inl ⟨_, .name [] [] name, .name [] links' name⟩
      | group => cases outermost
      | call => cases outermost
    · refine Or.inr ⟨fun t => ?_, below.settleAfter outermost _⟩
      simp only [shift]
      split
      · exact .some ⟨below, rfl⟩
      · exact below.shiftAfter outermost _ t

/-- A reader that an operand has ended in goes on as one that has read it. -/
theorem Ends.conclude {g : Reading} (ends : r.Ends brackets links e) {tokens : List Token}
    (noCall : ∀ t ∈ tokens.head?, t.kind ≠ .char '(') :
    r.conclude g tokens = Reader.conclude g ⟨brackets, links, .read e⟩ tokens := by
  cases tokens with
  | nil => exact Prod.ext ends.settle rfl
  | cons t rest =>
    have same : r.shift g t = Reader.shift g ⟨brackets, links, .read e⟩ t :=
      ends.shift (noCall t rfl)
    cases shifted : r.shift g t with
    | some s => rw [conclude_cons shifted, conclude_cons (same ▸ shifted)]
    | none =>
      rw [conclude_stop shifted, conclude_stop (same ▸ shifted), ends.settle]
      rfl

/-- Before an opening bracket either both operands are over or both are names of calls. -/
theorem Over.shift_opening {t : Token} (stands : Over base r s) (ended : r.Ends [] [] e)
    (opens : t.kind = .char '(') (table : OperatorTable) (reach : Reach) :
    r.shift ⟨table, .operand⟩ t = none ∧ s = ⟨[], base, .read e⟩ ∨
    ∃ r' s', r.shift ⟨table, .operand⟩ t = some r' ∧ s.shift ⟨table, reach⟩ t = some s' ∧
      Over base r' s' := by
  obtain ⟨brackets, links, stage⟩ := s
  obtain ⟨below, same⟩ := stands
  cases ended with
  | read =>
    cases same
    cases below
    exact Or.inl ⟨rfl, rfl⟩
  | name =>
    cases same
    cases below
    exact Or.inr ⟨_, _, if_pos opens, if_pos opens, .outermost, rfl⟩

theorem rel_cases {α β : Type} {R : α → β → Prop} {a : Option α} {b : Option β}
    (rel : Option.Rel R a b) : a = none ∧ b = none ∨ ∃ x y, a = some x ∧ b = some y ∧ R x y := by
  cases rel with
  | none => exact Or.inl ⟨rfl, rfl⟩
  | some related => exact Or.inr ⟨_, _, rfl, rfl, related⟩

/-- Where an operand is read over the links of a chain, the chain goes on after it. -/
theorem Over.conclude (stands : Over base r s) (table : OperatorTable) (reach : Reach)
    (tokens : List Token) :
    s.conclude ⟨table, reach⟩ tokens =
      match r.conclude ⟨table, .operand⟩ tokens with
      | (.ok e, left) => Reader.conclude ⟨table, reach⟩ ⟨[], base, .read e⟩ left
      | (.error what, left) => (.error what, left) := by
  induction tokens generalizing r s with
  | nil =>
    rcases stands.cases table reach with
      ⟨e, ended, ended'⟩ | ⟨-, what, settled, settled'⟩
    · have content : r.conclude ⟨table, .operand⟩ [] = (.ok e, []) := Prod.ext ended.settle rfl
      rw [content]
      exact ended'.conclude nofun
    · have refused : r.conclude ⟨table, .operand⟩ [] = (.error what, []) :=
        Prod.ext settled rfl
      rw [refused]
      exact Prod.ext settled' rfl
  | cons t rest ih =>
    rcases stands.cases table reach with
      ⟨e, ended, ended'⟩ | ⟨same, what, settled, settled'⟩
    · by_cases opens : t.kind = .char '('
      · rcases stands.shift_opening ended opens table reach with
          ⟨refused, rfl⟩ | ⟨r', s', called, called', stands'⟩
        · rw [conclude_stop refused, ended.settle]
          rfl
        · rw [conclude_cons called, conclude_cons called']
          exact ih stands'
      · have refused : r.shift ⟨table, .operand⟩ t = none := ended.shift opens
        rw [conclude_stop refused, ended.settle]
        exact ended'.conclude fun u first => by cases first; exact opens
    · rcases rel_cases (same t) with ⟨stops, stops'⟩ | ⟨r', s', shifted, shifted', stands'⟩
      · rw [conclude_stop stops, conclude_stop stops', settled, settled']
      · rw [conclude_cons shifted, conclude_cons shifted']
        exact ih stands'

end Reader

/-! ### One round of a chain -/

/-- The operator at hand binds at least as tightly as `bound`, and as the weakest that an
    operator can be. -/
structure Cursor.Continues (table : OperatorTable) (bound : Strength) (c : Cursor) : Prop where
  bound : bound ≤ table.rank c.kind
  positive : 1 ≤ table.rank c.kind

section Chain

variable {table : OperatorTable} {bound : Strength} {c c' : Cursor} {kind : TokenKind}
variable {op : Char} {strength : Strength} {links : List Link} {e : Expr}

theorem OperatorTable.operator?_eq_some (found : table.operator? kind = some (op, strength)) :
    kind = .char op ∧ table.rank kind = strength := by
  refine ⟨?_, by rw [rank, found]⟩
  unfold operator? at found
  repeat' split at found
  all_goals cases found
  rfl

theorem OperatorTable.operator?_of_rank (positive : 1 ≤ table.rank kind) :
    ∃ op, table.operator? kind = some (op, table.rank kind) := by
  cases found : table.operator? kind with
  | none =>
    rw [rank, found] at positive
    exact absurd positive (by decide)
  | some entry => exact ⟨entry.1, by rw [rank, found]⟩

theorem OperatorTable.one_le_strength (found : table.operator? kind = some (op, strength)) :
    1 ≤ strength := by
  have positive := Int32.lt_iff_toInt_lt.1 (strength_pos found)
  exact Int32.le_iff_toInt_le.2 positive

theorem OperatorTable.rank_neg (weak : ¬ 1 ≤ table.rank kind) : table.rank kind < 0 := by
  cases found : table.operator? kind with
  | none =>
    rw [rank, found]
    decide
  | some entry =>
    rw [rank, found] at weak
    exact absurd (one_le_strength found) weak

theorem Cursor.Continues.operatorHere (continues : c.Continues table bound) :
    ∃ op, c.kind = .char op ∧
      Reading.operatorHere ⟨table, .chain bound⟩ [] c.kind = some (op, table.rank c.kind) := by
  obtain ⟨op, found⟩ := OperatorTable.operator?_of_rank continues.positive
  refine ⟨op, (OperatorTable.operator?_eq_some found).1, ?_⟩
  simp [Reading.operatorHere, found, continues.bound]

theorem Cursor.operatorHere_of_not_continues (stops : ¬ c.Continues table bound) :
    Reading.operatorHere ⟨table, .chain bound⟩ [] c.kind = none := by
  cases found : table.operator? c.kind with
  | none => simp [Reading.operatorHere, found]
  | some entry =>
    obtain ⟨op, strength⟩ := entry
    obtain ⟨-, rank⟩ := OperatorTable.operator?_eq_some found
    have positive := OperatorTable.one_le_strength found
    have weak : strength < bound :=
      Int32.not_le.1 fun le => stops ⟨rank ▸ le, rank ▸ positive⟩
    simp [Reading.operatorHere, found, weak]

namespace Parse

/-- Go on with a chain that has the links `links`, the latest first, and then `e`. -/
def chain (table : OperatorTable) (bound : Strength) (links : List Link) (e : Expr) :
    Parse Expr :=
  Reader.read ⟨table, .chain bound⟩ ⟨[], links, .read e⟩

theorem outcome_chain_stop (stops : ¬ c.Continues table bound) (links : List Link) (e : Expr) :
    (chain table bound links e).outcome c = (.ok (Link.tree links.reverse e), c) := by
  have none := Cursor.operatorHere_of_not_continues stops
  obtain ⟨ahead, final, final_kind⟩ := c
  rw [chain, outcome_read]
  cases ahead with
  | nil => rfl
  | cons t rest =>
    have refused : Reader.shift ⟨table, .chain bound⟩ ⟨[], links, .read e⟩ t = .none := by
      simp only [Reader.shift, Reader.shiftAfter]
      rw [show t.kind = Cursor.kind ⟨t :: rest, final, final_kind⟩ from rfl, none]
    simp only [Reader.run, refused]
    rfl

theorem outcome_over {base : List Link} {r s : Reader} (stands : Reader.Over base r s)
    (table : OperatorTable) (reach : Reach) (c : Cursor) :
    (s.read ⟨table, reach⟩).outcome c =
      match (r.read ⟨table, .operand⟩).outcome c with
      | (.ok e, c') => (Reader.read ⟨table, reach⟩ ⟨[], base, .read e⟩).outcome c'
      | (.error d, c') => (.error d, c') := by
  simp only [outcome_read]
  have goes := stands.conclude table reach c.ahead
  simp only [Reader.conclude] at goes
  cases settled : (r.run ⟨table, .operand⟩ c.ahead).1.settle with
  | ok e =>
    simp only [settled, Prod.mk.injEq] at goes
    simp only [mapError_ok, goes]
  | error what =>
    simp only [settled, Prod.mk.injEq] at goes
    simp only [goes]
    rfl

theorem outcome_chain (continues : c.Continues table bound) (links : List Link) (e : Expr) :
    ∃ op, c.kind = .char op ∧ (chain table bound links e).outcome c =
      match (operand table).outcome c.advance with
      | (.ok e', c') => (chain table bound (⟨e, op, table.rank c.kind⟩ :: links) e').outcome c'
      | (.error d, c') => (.error d, c') := by
  obtain ⟨op, kind, here⟩ := continues.operatorHere
  refine ⟨op, kind, ?_⟩
  have stands : Reader.Over (⟨e, op, table.rank c.kind⟩ :: links) Reader.start
      ⟨[], ⟨e, op, table.rank c.kind⟩ :: links, .operand⟩ := ⟨.outermost, rfl⟩
  refine Eq.trans ?_ (outcome_over stands table (.chain bound) c.advance)
  obtain ⟨ahead, final, final_kind⟩ := c
  cases ahead with
  | nil =>
    rw [show Cursor.kind ⟨[], final, final_kind⟩ = .eof from final_kind] at kind
    cases kind
  | cons t rest =>
    have shifted : Reader.shift ⟨table, .chain bound⟩ ⟨[], links, .read e⟩ t =
        some ⟨[], ⟨e, op, table.rank t.kind⟩ :: links, .operand⟩ := by
      simp only [Reader.shift, Reader.shiftAfter]
      rw [show Reading.operatorHere ⟨table, .chain bound⟩ [] t.kind = _ from here]
      rfl
    simp only [chain, outcome_read, Reader.run, shifted]
    rfl

end Parse

end Chain

/-! ### Whole chains -/

/-- What a chain takes from a cursor on: pairs of an operator that binds at least as tightly
    as `bound` and what `operand` reads after it, as many as there are.  It ends where no
    such operator follows, or with the complaint about an operand. -/
inductive Spans (table : OperatorTable) (bound : Strength) :
    Cursor → List Application → Option Diagnostic → Cursor → Prop where
  | stop {c : Cursor} (stops : ¬ c.Continues table bound) : Spans table bound c [] none c
  | refused {c c' : Cursor} {d : Diagnostic} (continues : c.Continues table bound)
    (refuses : (Parse.operand table).outcome c.advance = (.error d, c')) :
    Spans table bound c [] (some d) c'
  | next {c c' c'' : Cursor} {op : Char} {e : Expr} {ops : List Application}
    {complaint : Option Diagnostic} (continues : c.Continues table bound)
    (kind : c.kind = .char op) (takes : (Parse.operand table).outcome c.advance = (.ok e, c'))
    (others : Spans table bound c' ops complaint c'') :
    Spans table bound c (⟨op, table.rank c.kind, e⟩ :: ops) complaint c''

/-- Climbing over the operations after `left`.  Where an operator is followed by a stronger
    one, its right operand first climbs over those that bind more tightly than it does; they
    do so at least at its own strength and one, which is again a strength. -/
inductive Climbs (table : OperatorTable) :
    Strength → Expr → Cursor → Except Diagnostic Expr × Cursor → Prop where
  | stop {bound : Strength} {left : Expr} {c : Cursor}
    (stops : table.rank c.kind < bound ∨ table.rank c.kind < 0) :
    Climbs table bound left c (.ok left, c)
  | refused {bound : Strength} {left : Expr} {c c' : Cursor} {op : Char} {d : Diagnostic}
    (binds : bound ≤ table.rank c.kind) (isOperator : 0 ≤ table.rank c.kind)
    (kind : c.kind = .char op)
    (refuses : (Parse.operand table).outcome c.advance = (.error d, c')) :
    Climbs table bound left c (.error d, c')
  | takes {bound : Strength} {left right : Expr} {c c' : Cursor} {op : Char}
    {done : Except Diagnostic Expr × Cursor}
    (binds : bound ≤ table.rank c.kind) (isOperator : 0 ≤ table.rank c.kind)
    (kind : c.kind = .char op)
    (takes : (Parse.operand table).outcome c.advance = (.ok right, c'))
    (looser : table.rank c'.kind ≤ table.rank c.kind)
    (others : Climbs table bound (.binary op left right) c' done) : Climbs table bound left c done
  | absorbs {bound : Strength} {left right right' : Expr} {c c' c'' : Cursor} {op : Char}
    {done : Except Diagnostic Expr × Cursor}
    (binds : bound ≤ table.rank c.kind) (isOperator : 0 ≤ table.rank c.kind)
    (kind : c.kind = .char op)
    (takes : (Parse.operand table).outcome c.advance = (.ok right, c'))
    (tighter : table.rank c.kind < table.rank c'.kind)
    (exact : (table.rank c.kind + 1).toInt = (table.rank c.kind).toInt + 1)
    (inner : Climbs table (table.rank c.kind + 1) right c' (.ok right', c''))
    (others : Climbs table bound (.binary op left right') c'' done) :
    Climbs table bound left c done
  | absorbsRefused {bound : Strength} {left right : Expr} {c c' c'' : Cursor} {op : Char}
    {d : Diagnostic}
    (binds : bound ≤ table.rank c.kind) (isOperator : 0 ≤ table.rank c.kind)
    (kind : c.kind = .char op)
    (takes : (Parse.operand table).outcome c.advance = (.ok right, c'))
    (tighter : table.rank c.kind < table.rank c'.kind)
    (exact : (table.rank c.kind + 1).toInt = (table.rank c.kind).toInt + 1)
    (inner : Climbs table (table.rank c.kind + 1) right c' (.error d, c'')) :
    Climbs table bound left c (.error d, c'')

section Spans

variable {table : OperatorTable} {bound bound' : Strength} {c c' c'' c₂ : Cursor}
variable {ops inner : List Application} {complaint : Option Diagnostic} {left right : Expr}
variable {op : Char}

/-- An operand leaves fewer tokens than there were with the operator before it. -/
theorem Parse.length_operand {done : Except Diagnostic Expr} (kind : c.kind = .char op)
    (reads : (operand table).outcome c.advance = (done, c')) :
    c'.ahead.length < c.ahead.length := by
  have forward := (forward_read ⟨table, .operand⟩ Reader.start c.advance).1
  rw [show Reader.read ⟨table, .operand⟩ Reader.start = operand table from rfl, reads] at forward
  obtain ⟨ahead, final, final_kind⟩ := c
  cases ahead with
  | nil =>
    rw [show Cursor.kind ⟨[], final, final_kind⟩ = .eof from final_kind] at kind
    cases kind
  | cons t rest => exact Nat.lt_succ_of_le forward.length_le

theorem exists_spans (table : OperatorTable) (bound : Strength) (c : Cursor) :
    ∃ ops complaint c', Spans table bound c ops complaint c' := by
  by_cases continues : c.Continues table bound
  · obtain ⟨op, kind, -⟩ := continues.operatorHere
    cases reads : (Parse.operand table).outcome c.advance with
    | mk done c' =>
      cases done with
      | error d => exact ⟨_, _, _, .refused continues reads⟩
      | ok e =>
        have shorter := Parse.length_operand kind reads
        obtain ⟨ops, complaint, c'', others⟩ := exists_spans table bound c'
        exact ⟨_, _, _, .next continues kind reads others⟩
  · exact ⟨_, _, _, .stop continues⟩
termination_by c.ahead.length

theorem Spans.outcome_chain (spans : Spans table bound c ops complaint c') (links : List Link)
    (e : Expr) :
    (Parse.chain table bound links e).outcome c =
      (complaint.elim (.ok (Pending.tree (links.reverse.foldl Link.push [], e) ops)) .error,
        c') := by
  induction spans generalizing links e with
  | stop stops => exact Parse.outcome_chain_stop stops links e
  | refused continues refuses =>
    obtain ⟨op, -, goes⟩ := Parse.outcome_chain continues links e
    rw [goes, refuses]
    rfl
  | next continues kind takes others ih =>
    obtain ⟨op, kind', goes⟩ := Parse.outcome_chain continues links e
    rw [kind] at kind'
    cases kind'
    rw [goes, takes]
    simp only [ih, List.reverse_cons, List.foldl_append, List.foldl_cons, List.foldl_nil]
    rfl

theorem Spans.outcome_operations (spans : Spans table bound c ops complaint c') (left : Expr) :
    (Parse.operations table bound left).outcome c =
      (complaint.elim (.ok (Application.tree left ops)) .error, c') :=
  spans.outcome_chain [] left

theorem Spans.continues (spans : Spans table bound c ops complaint c') :
    ∀ o ∈ ops, bound ≤ o.strength := by
  induction spans with
  | stop => nofun
  | refused => nofun
  | next continues kind takes others ih =>
    intro o member
    rcases List.mem_cons.1 member with rfl | later
    · exact continues.bound
    · exact ih o later

theorem Spans.stops (spans : Spans table bound c ops none c') : ¬ c'.Continues table bound := by
  generalize ended : (none : Option Diagnostic) = complaint at spans
  induction spans with
  | stop stops => exact stops
  | refused => cases ended
  | next _ _ _ _ ih => exact ih ended

theorem Spans.head (spans : Spans table bound c ops complaint c') :
    ∀ o ∈ ops.head?, o.strength = table.rank c.kind := by
  cases spans with
  | stop => nofun
  | refused => nofun
  | next =>
    intro o first
    cases first
    rfl

/-- A chain begins with the chain of any stronger operators, and goes on where that ends. -/
theorem Spans.append (above : ∀ c : Cursor, c.Continues table bound' → c.Continues table bound)
    (first : Spans table bound' c inner none c') (others : Spans table bound c' ops complaint c'') :
    Spans table bound c (inner ++ ops) complaint c'' := by
  generalize ended : (none : Option Diagnostic) = complaint' at first
  induction first with
  | stop => exact others
  | refused => cases ended
  | next continues kind takes _ ih => exact .next (above _ continues) kind takes (ih others ended)

theorem Spans.refused_of_inner {d : Diagnostic}
    (above : ∀ c : Cursor, c.Continues table bound' → c.Continues table bound)
    (first : Spans table bound' c inner (some d) c') : Spans table bound c inner (some d) c' := by
  generalize ended : some d = complaint at first ⊢
  induction first with
  | stop => cases ended
  | refused continues refuses => exact .refused (above _ continues) refuses
  | next continues kind takes _ ih => exact .next (above _ continues) kind takes (ih ended)

/-! ### The climb -/

/-- The operations `inner` that bind more tightly than the operator before them make its
    right operand. -/
theorem outcome_absorb (continues : c.Continues table bound) (kind : c.kind = .char op)
    (takes : (Parse.operand table).outcome c.advance = (.ok right, c'))
    (all : Spans table bound c' (inner ++ ops) complaint c₂)
    (others : Spans table bound c'' ops complaint c₂)
    (tighter : ∀ o ∈ inner, table.rank c.kind < o.strength)
    (looser : table.rank c''.kind ≤ table.rank c.kind) (left : Expr) :
    (Parse.operations table bound left).outcome c =
      (Parse.operations table bound (.binary op left (Application.tree right inner))).outcome
        c'' := by
  have spans : Spans table bound c (⟨op, table.rank c.kind, right⟩ :: (inner ++ ops)) complaint
      c₂ := .next continues kind takes all
  rw [spans.outcome_operations left, others.outcome_operations]
  cases complaint with
  | some d => rfl
  | none =>
    let link : Link := ⟨left, op, table.rank c.kind⟩
    have fold : inner.foldl Pending.absorb ([link], right) =
        ((inner.foldl Pending.absorb ([], right)).1 ++ [link],
          (inner.foldl Pending.absorb ([], right)).2) := Pending.foldl_below ([], right) tighter
    have waits : ∀ o ∈ ops.head?, ∀ l ∈ (inner.foldl Pending.absorb ([link], right)).1,
        o.strength ≤ l.strength := by
      intro o first l member
      rw [others.head o first]
      rw [fold] at member
      rcases List.mem_append.1 member with above | bottom
      · have stronger := Pending.strength_foldl (p := ([], right))
          (P := (table.rank c.kind < ·)) nofun tighter l above
        exact Int32.le_trans looser (Int32.le_of_lt stronger)
      · rw [List.mem_singleton.1 bottom]
        exact looser
    have tree : Application.tree left (⟨op, table.rank c.kind, right⟩ :: (inner ++ ops)) =
        Pending.tree (inner.foldl Pending.absorb ([link], right)) ops :=
      Pending.tree_append ([link], right) inner ops
    rw [tree, Pending.tree_settled waits, fold, Pending.whole_below]
    rfl

/-- A strength that another one exceeds is not the greatest. -/
theorem toInt_succ {s next : Strength} (tighter : s < next) :
    (s + 1).toInt = s.toInt + 1 := by
  have lt := Int32.lt_iff_toInt_lt.1 tighter
  have most : next.toInt ≤ 2147483647 := Int32.toInt_le next
  have least : -2147483648 ≤ s.toInt := Int32.le_toInt s
  rw [Int32.toInt_add, show Int32.toInt 1 = 1 from rfl]
  exact Int.bmod_eq_of_le (by omega) (by omega)

theorem continues_succ {s : Strength} (exact : (s + 1).toInt = s.toInt + 1) (positive : 1 ≤ s)
    (table : OperatorTable) (c : Cursor) : c.Continues table (s + 1) ↔ s < table.rank c.kind := by
  have atLeast := Int32.le_iff_toInt_le.1 positive
  constructor
  · intro continues
    have le := Int32.le_iff_toInt_le.1 continues.bound
    exact Int32.lt_iff_toInt_lt.2 (by omega)
  · intro tighter
    have lt := Int32.lt_iff_toInt_lt.1 tighter
    exact ⟨Int32.le_iff_toInt_le.2 (by omega), Int32.le_iff_toInt_le.2 (by omega)⟩

/-- What continues the chain after the operator at hand continues the chain of that operator. -/
theorem Cursor.Continues.of_succ (continues : c.Continues table bound)
    (exact : (table.rank c.kind + 1).toInt = (table.rank c.kind).toInt + 1)
    (above : c'.Continues table (table.rank c.kind + 1)) : c'.Continues table bound := by
  have tighter := (continues_succ exact continues.positive table c').1 above
  exact ⟨Int32.le_trans continues.bound (Int32.le_of_lt tighter), above.positive⟩

theorem Spans.tighter {s : Strength} (exact : (s + 1).toInt = s.toInt + 1)
    (spans : Spans table (s + 1) c ops complaint c') : ∀ o ∈ ops, s < o.strength := by
  intro o member
  have le := Int32.le_iff_toInt_le.1 (spans.continues o member)
  exact Int32.lt_iff_toInt_lt.2 (by omega)

theorem Parse.length_operations {done : Except Diagnostic Expr}
    (reads : (operations table bound left).outcome c = (done, c')) :
    c'.ahead.length ≤ c.ahead.length := by
  have forward := (forward_read ⟨table, .chain bound⟩ ⟨[], [], .read left⟩ c).1.length_le
  rwa [show Reader.read ⟨table, .chain bound⟩ ⟨[], [], .read left⟩ =
    operations table bound left from rfl, reads] at forward

theorem climbs_operations (table : OperatorTable) (bound : Strength) (left : Expr) (c : Cursor) :
    Climbs table bound left c ((Parse.operations table bound left).outcome c) := by
  by_cases continues : c.Continues table bound
  case neg =>
    rw [(Spans.stop continues).outcome_operations left]
    refine .stop ?_
    by_cases weak : bound ≤ table.rank c.kind
    · exact Or.inr (OperatorTable.rank_neg fun positive => continues ⟨weak, positive⟩)
    · exact Or.inl (Int32.not_le.1 weak)
  obtain ⟨op, kind, -⟩ := continues.operatorHere
  have isOperator : 0 ≤ table.rank c.kind := Int32.le_trans (by decide) continues.positive
  cases reads : (Parse.operand table).outcome c.advance with
  | mk done c' =>
  cases done with
  | error d =>
    rw [(Spans.refused continues reads).outcome_operations left]
    exact .refused continues.bound isOperator kind reads
  | ok right =>
  have shorter := Parse.length_operand kind reads
  by_cases tighter : table.rank c.kind < table.rank c'.kind
  case neg =>
    have looser := Int32.not_lt.1 tighter
    obtain ⟨ops, complaint, c₂, others⟩ := exists_spans table bound c'
    have all : Spans table bound c' ([] ++ ops) complaint c₂ := others
    rw [outcome_absorb continues kind reads all others nofun looser left]
    exact .takes continues.bound isOperator kind reads looser (climbs_operations table bound _ c')
  have exact_ := toInt_succ tighter
  have above : ∀ c₁ : Cursor, c₁.Continues table (table.rank c.kind + 1) →
      c₁.Continues table bound := fun _ stronger => continues.of_succ exact_ stronger
  obtain ⟨inner, complaint, c'', first⟩ := exists_spans table (table.rank c.kind + 1) c'
  have reads' := first.outcome_operations right
  have climb := climbs_operations table (table.rank c.kind + 1) right c'
  rw [reads'] at climb
  cases complaint with
  | some d =>
    have spans := Spans.next continues kind reads (first.refused_of_inner above)
    rw [spans.outcome_operations left]
    exact .absorbsRefused continues.bound isOperator kind reads tighter exact_ climb
  | none =>
    have later := Parse.length_operations reads'
    have looser : table.rank c''.kind ≤ table.rank c.kind := by
      apply Int32.not_lt.1
      intro stronger
      exact first.stops ((continues_succ exact_ continues.positive table c'').2 stronger)
    obtain ⟨ops, complaint, c₂, others⟩ := exists_spans table bound c''
    rw [outcome_absorb continues kind reads (first.append above others) others
      (first.tighter exact_) looser left]
    exact .absorbs continues.bound isOperator kind reads tighter exact_ climb
      (climbs_operations table bound _ c'')
termination_by c.ahead.length
decreasing_by all_goals omega

end Spans

/-! ### The reading of chains -/

theorem Parse.ext_outcome {α : Type} {p q : Parse α} (same : ∀ c, p.outcome c = q.outcome c) :
    p = q :=
  funext same

/-- The operations after an expression are the longest run of operators of at least the
    strength `bound`, each with the operand after it; their tree is split at the last of the
    weakest, and it is the one that climbing comes to, which never leaves the strengths that
    there are.  An expression is an operand and the operations after it. -/
theorem operations_climb (table : OperatorTable) (bound : Strength) (left : Expr) (c : Cursor) :
    (∀ e c', (Parse.operations table bound left).outcome c = (.ok e, c') ↔
      ∃ ops, Spans table bound c ops none c' ∧ Splits left ops e) ∧
    Climbs table bound left c ((Parse.operations table bound left).outcome c) ∧
    Parse.expression table = Parse.operand table >>= Parse.operations table 0 := by
  refine ⟨fun e c' => ?_, climbs_operations table bound left c, Parse.ext_outcome fun c => ?_⟩
  · obtain ⟨ops, complaint, c₁, spans⟩ := exists_spans table bound c
    constructor
    · intro reads
      rw [spans.outcome_operations] at reads
      cases complaint with
      | some d => cases reads
      | none =>
        cases reads
        exact ⟨ops, spans, splits_iff.2 rfl⟩
    · rintro ⟨ops', spans', splits⟩
      rw [spans'.outcome_operations, splits_iff.1 splits]
      rfl
  · have stands : Reader.Over [] Reader.start Reader.start := ⟨.outermost, rfl⟩
    rw [Parse.outcome_bind, Parse.expression, Parse.outcome_over stands, Parse.operand]
    rcases (Reader.read ⟨table, .operand⟩ Reader.start).outcome c with ⟨_ | _, _⟩ <;> rfl

end Reckon
