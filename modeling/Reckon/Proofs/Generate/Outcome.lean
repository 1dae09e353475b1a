/-
  Outcomes of generation.

  What each building block of generation answers and what it does to the generator, and
  what happens to a whole that is put together of two parts.
-/
import Reckon.Generate.Basic

namespace Reckon.Gen

variable {σ V F α β : Type}

theorem outcome_bind (p : Gen σ V α) (f : α → Gen σ V β) (g : Generator σ V) :
    (p >>= f).outcome g =
      match p.outcome g with
      | (.ok a, g') => (f a).outcome g'
      | (.error e, g') => (.error e, g') := by
  change (ExceptT.run (ExceptT.bind p f)).run g = _
  simp only [outcome, ExceptT.run, ExceptT.bind, ExceptT.mk, StateT.run, bind, StateT.bind]
  rcases p g with ⟨_ | _, _⟩ <;> rfl

@[simp] theorem outcome_pure (a : α) (g : Generator σ V) :
    (pure a : Gen σ V α).outcome g = (.ok a, g) := rfl

@[simp] theorem outcome_throw (d : Diagnostic) (g : Generator σ V) :
    (throw d : Gen σ V α).outcome g = (.error d, g) := rfl

@[simp] theorem outcome_get (g : Generator σ V) :
    (get : Gen σ V (Generator σ V)).outcome g = (.ok g, g) := rfl

@[simp] theorem outcome_targetState (g : Generator σ V) :
    (targetState : Gen σ V σ).outcome g = (.ok g.target, g) := rfl

@[simp] theorem outcome_setScope (scope : Scope V) (g : Generator σ V) :
    (setScope scope : Gen σ V Unit).outcome g = (.ok (), { g with scope }) := rfl

@[simp] theorem outcome_tell (call : StateM σ α) (g : Generator σ V) :
    (tell call : Gen σ V α).outcome g =
      (.ok (call.run g.target).1, { g with target := (call.run g.target).2 }) := rfl

@[simp] theorem outcome_attempt (p : Gen σ V α) (g : Generator σ V) :
    (attempt p).outcome g = (.ok (p.outcome g).1, (p.outcome g).2) := rfl

theorem outcome_ask (p : Position) (call : Emit σ α) (g : Generator σ V) :
    (ask p call : Gen σ V α).outcome g =
      ((call.run g.target).1.mapError fun e => ⟨e.toCause, p⟩,
        { g with target := (call.run g.target).2 }) := by
  change ask p call g = _
  unfold ask
  rcases call.run g.target with ⟨_ | _, target⟩ <;> rfl

/-! ### Names bound between constructs -/

theorem scope_prototype (t : Target σ V F) (p : Prototype) (g : Generator σ V) :
    ((prototype t p).outcome g).2.scope = g.scope := by
  unfold prototype
  rw [outcome_bind, outcome_targetState]
  simp only
  split
  · split <;> rfl
  · rw [outcome_ask]

/-- A definition leaves no name bound, whether it is generated or not. -/
theorem scope_definition (t : Target σ V F) (d : Definition) {g : Generator σ V}
    (unbound : g.scope = []) : ((definition t d).outcome g).2.scope = [] := by
  have between := scope_prototype t d.proto g
  unfold definition
  simp only [outcome_bind, outcome_targetState]
  generalize (prototype t d.proto).outcome g = came at between ⊢
  obtain ⟨e | f, g₁⟩ := came
  · exact between.trans unbound
  simp only at between ⊢
  cases t.hasBody g₁.target f with
  | true => exact between.trans unbound
  | false =>
    simp only [Bool.false_eq_true, if_false, outcome_bind, outcome_attempt, outcome_setScope]
    rcases (body t d f).outcome g₁ with ⟨e | _, g₂⟩ <;> rfl

end Reckon.Gen
