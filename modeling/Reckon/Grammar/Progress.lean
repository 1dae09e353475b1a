/-
  Reading goes forward.

  Reading from a cursor leaves a suffix of the tokens ahead and never touches the
  closing token.  An expression that was read took at least one token, and so did every
  construct that begins with a keyword, whether it was read or refused.
-/
import Reckon.Grammar.Construct

namespace Reckon

namespace Parse

variable {α β : Type}

/-! ### Outcomes of the building blocks -/

theorem outcome_bind (p : Parse α) (f : α → Parse β) (c : Cursor) :
    (p >>= f).outcome c =
      match p.outcome c with
      | (.ok a, c') => (f a).outcome c'
      | (.error e, c') => (.error e, c') := by
  change (ExceptT.run (ExceptT.bind p f)).run c = _
  simp only [outcome, ExceptT.run, ExceptT.bind, ExceptT.mk, StateT.run, bind, StateT.bind]
  rcases p c with ⟨_ | _, _⟩ <;> rfl

@[simp] theorem outcome_pure (a : α) (c : Cursor) :
    (pure a : Parse α).outcome c = (.ok a, c) := rfl

@[simp] theorem outcome_throw (d : Diagnostic) (c : Cursor) :
    (throw d : Parse α).outcome c = (.error d, c) := rfl

@[simp] theorem outcome_next (c : Cursor) : next.outcome c = (.ok c.current, c.advance) := rfl

@[simp] theorem outcome_get (c : Cursor) : (get : Parse Cursor).outcome c = (.ok c, c) := rfl

@[simp] theorem outcome_set (c c' : Cursor) :
    (set c' : Parse PUnit).outcome c = (.ok ⟨⟩, c') := rfl

theorem outcome_expect (kind : TokenKind) (what : Expectation) (c : Cursor) :
    (expect kind what).outcome c =
      if c.kind = kind then (.ok c.current, c.advance) else (.error (c.complaint what), c) := by
  rw [expect, outcome_bind, outcome_get]
  simp only
  split <;> rfl

theorem outcome_names (c : Cursor) :
    names.outcome c =
      (.ok (takeNames c.ahead).1, { c with ahead := (takeNames c.ahead).2 }) := rfl

theorem outcome_read (g : Reading) (r : Reader) (c : Cursor) :
    (r.read g).outcome c =
      let last := r.run g c.ahead
      let after := { c with ahead := last.2 }
      (last.1.settle.mapError after.complaint, after) := by
  simp only [Reader.read, outcome_bind, outcome_get, outcome_set]
  cases (r.run g c.ahead).1.settle <;> rfl

end Parse

/-! ### Tokens left -/

theorem Reader.run_suffix (g : Reading) (r : Reader) (tokens : List Token) :
    (r.run g tokens).2 <:+ tokens := by
  induction tokens generalizing r with
  | nil => exact List.suffix_refl _
  | cons t rest ih =>
    unfold Reader.run
    split
    · exact (ih _).trans (List.suffix_cons t rest)
    · exact List.suffix_refl _

/-- A reader that begins an operand is complete only after it took a token. -/
theorem Reader.run_lt_of_settle {g : Reading} {brackets : List Bracket} {links : List Link}
    {tokens : List Token} {e : Expr}
    (h : (Reader.run g ⟨brackets, links, .operand⟩ tokens).1.settle = .ok e) :
    (Reader.run g ⟨brackets, links, .operand⟩ tokens).2.length < tokens.length := by
  cases tokens with
  | nil => simp [Reader.run, Reader.settle] at h
  | cons t rest =>
    unfold Reader.run at h ⊢
    split at h
    · rename_i r' _
      exact Nat.lt_succ_of_le (Reader.run_suffix g r' rest).length_le
    · simp [Reader.settle] at h

theorem takeNames_suffix (tokens : List Token) : (takeNames tokens).2 <:+ tokens := by
  induction tokens with
  | nil => exact List.suffix_refl _
  | cons t rest ih =>
    unfold takeNames
    split
    · exact ih.trans (List.suffix_cons t rest)
    · exact List.suffix_refl _

namespace Parse

variable {α β : Type}

/-- Reading leaves a suffix of the tokens ahead and the same closing token. -/
def Forward (p : Parse α) : Prop :=
  ∀ c, (p.outcome c).2.ahead <:+ c.ahead ∧ (p.outcome c).2.final = c.final

theorem Forward.bind {p : Parse α} {f : α → Parse β} (hp : p.Forward)
    (hf : ∀ a, (f a).Forward) : (p >>= f).Forward := by
  intro c
  rw [outcome_bind]
  have h := hp c
  split
  · rename_i a c' eq
    rw [eq] at h
    exact ⟨(hf a c').1.trans h.1, (hf a c').2.trans h.2⟩
  · rename_i e c' eq
    rw [eq] at h
    exact h

theorem forward_pure (a : α) : (pure a : Parse α).Forward :=
  fun _ => ⟨List.suffix_refl _, rfl⟩

theorem forward_next : next.Forward :=
  fun c => ⟨List.tail_suffix c.ahead, rfl⟩

theorem forward_expect (kind : TokenKind) (what : Expectation) :
    (expect kind what).Forward := by
  intro c
  rw [outcome_expect]
  split
  · exact forward_next c
  · exact ⟨List.suffix_refl _, rfl⟩

theorem forward_read (g : Reading) (r : Reader) : (r.read g).Forward := by
  intro c
  rw [outcome_read]
  exact ⟨Reader.run_suffix g r c.ahead, rfl⟩

theorem forward_names : names.Forward := by
  intro c
  rw [outcome_names]
  exact ⟨takeNames_suffix c.ahead, rfl⟩

theorem forward_prototype : prototype.Forward :=
  (forward_expect _ _).bind fun _ => (forward_expect _ _).bind fun _ =>
    forward_names.bind fun _ => (forward_expect _ _).bind fun _ => forward_pure _

theorem forward_expression (table : OperatorTable) : (expression table).Forward :=
  forward_read _ _

/-- Reading that takes the token at hand and then goes on leaves fewer tokens. -/
theorem length_next_bind {f : Token → Parse β} (hf : ∀ t, (f t).Forward) {c : Cursor}
    (h : c.ahead ≠ []) : ((next >>= f).outcome c).2.ahead.length < c.ahead.length := by
  rw [outcome_bind, outcome_next]
  have le := (hf c.current c.advance).1.length_le
  have : c.ahead.length = c.ahead.tail.length + 1 := by
    cases eq : c.ahead with
    | nil => exact absurd eq h
    | cons t rest => rfl
  exact Nat.lt_of_le_of_lt le (by simp only [Cursor.advance]; omega)

theorem length_definition (table : OperatorTable) {c : Cursor} (h : c.ahead ≠ []) :
    ((definition table).outcome c).2.ahead.length < c.ahead.length :=
  length_next_bind (fun _ => forward_prototype.bind fun _ =>
    (forward_expression table).bind fun _ => forward_pure _) h

theorem length_external {c : Cursor} (h : c.ahead ≠ []) :
    (external.outcome c).2.ahead.length < c.ahead.length :=
  length_next_bind (fun _ => forward_prototype) h

theorem forward_topLevel (table : OperatorTable) : (topLevel table).Forward :=
  (forward_expression table).bind fun _ => forward_pure _

/-- A top-level expression that was read took a token. -/
theorem length_topLevel {table : OperatorTable} {c c' : Cursor} {d : Definition}
    (h : (topLevel table).outcome c = (.ok d, c')) : c'.ahead.length < c.ahead.length := by
  rw [topLevel, outcome_bind, expression, outcome_read] at h
  simp only at h
  cases settled : (Reader.start.run ⟨table, .chain 0⟩ c.ahead).1.settle with
  | error e => simp [settled] at h
  | ok e =>
    simp only [settled, mapError_ok, outcome_pure, Prod.mk.injEq] at h
    rw [← h.2]
    exact Reader.run_lt_of_settle settled

end Parse

end Reckon
