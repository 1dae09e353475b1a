/-
  Which half of the work refuses.

  `Parse.Complains` says of something that is read that its only failures are complaints of
  the token at hand where it stopped, which are syntax errors.  It is shown of the building
  blocks and kept by going on with the next thing, and so it holds of every construct.  What
  a construct is refused with once it was read is of the other class.
-/
import Reckon.Proofs.Generate.Blame
import Reckon.Grammar.Progress

namespace Reckon

/-! ### Reading -/

namespace Parse

variable {α β : Type}

def Complains (p : Parse α) : Prop :=
  ∀ c d c', p.outcome c = (.error d, c') → ∃ what, d = c'.complaint what

theorem Complains.bind {p : Parse α} {f : α → Parse β} (hp : p.Complains)
    (hf : ∀ a, (f a).Complains) : (p >>= f).Complains := by
  intro c d c' failed
  rw [outcome_bind] at failed
  split at failed
  · rename_i a between _
    exact hf a between d c' failed
  · rename_i e between first
    cases failed
    exact hp c d c' first

theorem complains_pure (a : α) : (pure a : Parse α).Complains := by
  intro c d c' failed
  cases failed

theorem complains_next : next.Complains := by
  intro c d c' failed
  cases failed

theorem complains_names : names.Complains := by
  intro c d c' failed
  cases failed

theorem complains_expect (kind : TokenKind) (what : Expectation) :
    (expect kind what).Complains := by
  intro c d c' failed
  rw [outcome_expect] at failed
  split at failed
  · cases failed
  · cases failed
    exact ⟨what, rfl⟩

theorem complains_read (g : Reading) (r : Reader) : (r.read g).Complains := by
  intro c d c' failed
  rw [outcome_read] at failed
  simp only at failed
  cases settled : (r.run g c.ahead).1.settle with
  | ok e =>
    rw [settled] at failed
    cases failed
  | error what =>
    rw [settled] at failed
    cases failed
    exact ⟨what, rfl⟩

theorem complains_prototype : prototype.Complains :=
  (complains_expect _ _).bind fun _ => (complains_expect _ _).bind fun _ =>
    complains_names.bind fun _ => (complains_expect _ _).bind fun _ => complains_pure _

theorem complains_definition (table : OperatorTable) : (definition table).Complains :=
  complains_next.bind fun _ => complains_prototype.bind fun _ =>
    (complains_read _ _).bind fun _ => complains_pure _

theorem complains_external : external.Complains :=
  complains_next.bind fun _ => complains_prototype

theorem complains_topLevel (table : OperatorTable) : (topLevel table).Complains :=
  (complains_read _ _).bind fun _ => complains_pure _

end Parse

theorem Cursor.severity_complaint (c : Cursor) (what : Expectation) :
    (c.complaint what).cause.severity = .syntactic := rfl

/-! ### Generating -/

namespace TargetError

/-- Whatever a target refuses, the refusal is no syntax error. -/
theorem severity_toCause (e : TargetError) : e.toCause.severity = .semantic := by
  cases e <;> rfl

end TargetError

/-- What a construct is refused with, once it was read, is no syntax error. -/
theorem Expr.Blamed.severity {e : Expr} {d : Diagnostic} (blamed : e.Blamed d) :
    d.cause.severity = .semantic := by
  induction blamed with
  | literal e | operation e | call e => exact e.severity_toCause
  | unbound | invalid | unknown | count => rfl
  | left _ ih | right _ ih | argument _ _ ih => exact ih

theorem Prototype.Blamed.severity {p : Prototype} {d : Diagnostic} (blamed : p.Blamed d) :
    d.cause.severity = .semantic := by
  cases blamed with
  | mismatch => rfl
  | target e => exact e.severity_toCause

theorem Definition.Blamed.severity {d : Definition} {e : Diagnostic} (blamed : d.Blamed e) :
    e.cause.severity = .semantic := by
  cases blamed with
  | prototype inside => exact inside.severity
  | redefinition => rfl
  | body inside => exact inside.severity
  | invalid => rfl

end Reckon
