/-
  What generating a construct leaves behind.

  `Declares` and `Defines` say what a declaration and a definition that succeed do to an
  assembly, and `Keeps` what one that fails does: nothing, but for numbers taken and a
  slot that stays empty.  The main statements, `prototype_outcome` and
  `definition_outcome`, say that generation into an unreliable target does one of these,
  wherever it fails.
-/
import Reckon.Proofs.Generate.Code

namespace Reckon

namespace Assembly

/-- Declaring `p` gives the handle `h` and leaves the assembly `b`: the routine of that
    name and number of parameters, or a new one at the end. -/
inductive Declares (a : Assembly) (p : Prototype) : Handle → Assembly → Prop where
  | found {h : Handle} (named : a.lookup p.name = some h) (count : a.arity h = p.arity) :
    Declares a p h a
  | new (unnamed : a.lookup p.name = none) :
    Declares a p a.slots.size (a.declared p.name p.params)

/-- Defining `d` gives the handle `h` and leaves the assembly `c`: the declared routine has
    received the code of the body and a return. -/
inductive Defines (a : Assembly) (d : Definition) (h : Handle) (c : Assembly) : Prop where
  | intro {b : Assembly} {r : Routine} {is : List Instruction} {v : Value} {next : Nat}
    (declares : Declares a d.proto h b) (here : b.routine? h = some r)
    (bodiless : r.body = none)
    (code : Code b.callees (.ofParams d.proto.params r.values) b.nextValue d.body is v next)
    (le : b.nextValue ≤ next) (filled : c = b.fill h r (is ++ [.ret v]) next)
    (checked : c.check h = true)

/-- `b` has the routines of `a`, at most one more empty slot, and took no numbers back. -/
structure Keeps (a b : Assembly) : Prop where
  slots : b.slots = a.slots ∨ b.slots = a.slots.push none
  nextValue : a.nextValue ≤ b.nextValue
  depthLimit : b.depthLimit = a.depthLimit

variable {a b : Assembly} {h : Handle} {r : Routine} {p : Prototype}

theorem Keeps.refl (a : Assembly) : a.Keeps a := ⟨Or.inl rfl, Nat.le_refl _, rfl⟩

theorem routine?_declared (a : Assembly) (name : String) (params : List String) (k : Handle) :
    (a.declared name params).routine? k =
      if k = a.slots.size then some (a.newRoutine name params) else a.routine? k :=
  routine?_push rfl k

/-- A declaration leaves the other slots alone. -/
theorem Declares.elsewhere (declares : a.Declares p h b) {k : Handle} (ne : k ≠ h) :
    b.routine? k = a.routine? k := by
  cases declares with
  | found named count => rfl
  | new unnamed => rw [routine?_declared, if_neg ne]

/-- The handle that a declaration gives stands for a routine of its name and number of
    parameters, which was there before or is new and has no body. -/
theorem Declares.here (declares : a.Declares p h b) :
    ∃ r, b.routine? h = some r ∧ r.name = p.name ∧ r.params.length = p.arity ∧
      (a.routine? h = some r ∧ a.lookup p.name = some h ∨
        a.routine? h = none ∧ r.body = none ∧ a.lookup p.name = none) := by
  cases declares with
  | found named count =>
    obtain ⟨r, hr, name⟩ := routine?_of_lookup named
    exact ⟨r, hr, name, by simpa [arity, hr] using count, Or.inl ⟨hr, named⟩⟩
  | new unnamed =>
    exact ⟨_, by rw [routine?_declared, if_pos rfl], rfl, rfl,
      Or.inr ⟨routine?_size a, rfl, unnamed⟩⟩

/-- How far writing `r` in slot `h` may have come: the body was not begun, or holds some
    code. -/
inductive Drafted (b : Assembly) (h : Handle) (r : Routine) : Assembly → Prop where
  | closed : Drafted b h r b
  | begun (code : List Instruction) {next : Nat} (le : b.nextValue ≤ next) :
    Drafted b h r (b.fill h r code next)

namespace Drafted

variable {c : Assembly}

/-- But for the slot of the routine, all slots are what they were. -/
theorem setIfInBounds (drafted : Drafted b h r c) (slot : Option Routine) :
    c.slots.setIfInBounds h slot = b.slots.setIfInBounds h slot := by
  cases drafted with
  | closed => rfl
  | begun code le => simp [fill]

theorem nextValue_le (drafted : Drafted b h r c) : b.nextValue ≤ c.nextValue := by
  cases drafted with
  | closed => exact Nat.le_refl _
  | begun code le => exact le

theorem depthLimit_eq (drafted : Drafted b h r c) : c.depthLimit = b.depthLimit := by
  cases drafted <;> rfl

theorem discardBody (drafted : Drafted b h r c) (hr : b.routine? h = some r)
    (bodiless : r.body = none) : b.Keeps ((discardBody h).run c).2 := by
  have dropped : ∃ s, c.routine? h = some s ∧ { s with body := none } = r := by
    cases drafted with
    | closed => exact ⟨r, hr, by rw [← bodiless]⟩
    | begun code le => exact ⟨_, by rw [routine?_fill hr, if_pos rfl], by rw [← bodiless]⟩
  obtain ⟨s, hs, eq⟩ := dropped
  have run : ((Assembly.discardBody h).run c).2 = (c.setSlot h (some r)).close h := by
    rw [run_discardBody hs, eq]
  have same : c.slots.setIfInBounds h (some r) = b.slots := by
    rw [drafted.setIfInBounds, setIfInBounds_routine? hr]
  rw [run]
  refine ⟨Or.inl ?_, ?_, ?_⟩ <;> unfold close <;> split
  · exact same
  · exact same
  · exact drafted.nextValue_le
  · exact drafted.nextValue_le
  · exact drafted.depthLimit_eq
  · exact drafted.depthLimit_eq

/-- Giving a routine up that was declared last leaves an empty slot. -/
theorem abandon {p : Prototype} (drafted : Drafted (a.declared p.name p.params) a.slots.size r c) :
    a.Keeps ((abandon a.slots.size).run c).2 := by
  have run : ((Assembly.abandon a.slots.size).run c).2 =
      (c.setSlot a.slots.size none).close a.slots.size := rfl
  have same : c.slots.setIfInBounds a.slots.size none = a.slots.push none := by
    rw [drafted.setIfInBounds]
    exact Array.ext' (by simp [declared])
  have le : a.nextValue ≤ c.nextValue := Nat.le_trans (Nat.le_add_right _ _) drafted.nextValue_le
  rw [run]
  refine ⟨Or.inr ?_, ?_, ?_⟩ <;> unfold close <;> split
  · exact same
  · exact same
  · exact le
  · exact le
  · exact drafted.depthLimit_eq
  · exact drafted.depthLimit_eq

end Drafted

end Assembly

section Generator

open Assembly

variable {σ : Type} {t : Target σ Value Handle} {view : σ → Assembly}

namespace Gen

/-! ### Declarations -/

/-- A prototype is declared, or everything stays as it was. -/
theorem prototype_outcome (ht : t.Unreliable view) (p : Prototype) (g : Generator σ Value) :
    ((prototype t p).outcome g).2.scope = g.scope ∧
      match ((prototype t p).outcome g).1 with
      | .ok h => (view g.target).Declares p h (view ((prototype t p).outcome g).2.target)
      | .error _ => view ((prototype t p).outcome g).2.target = view g.target := by
  unfold prototype
  rw [outcome_bind, outcome_targetState]
  simp only [ht.lookup, ht.arity]
  cases found : (view g.target).lookup p.name with
  | some h =>
    by_cases count : (view g.target).arity h = p.arity
    · simp only [count, if_true, outcome_pure]
      exact ⟨trivial, .found found count⟩
    · simp only [count, if_false, outcome_throw, and_self]
  | none =>
    simp only [outcome_ask, true_and]
    rcases ht.declare p.name p.params g.target with as_sure | ⟨e, failed, kept⟩
    · simp only [run_declare, found, Option.isSome_none, Bool.false_eq_true, if_false] at as_sure
      obtain ⟨answer, after⟩ := Prod.mk.inj as_sure
      simp only [answer, after, mapError_ok]
      exact .new found
    · simp only [failed, kept, mapError_error]

/-! ### Bodies -/

/-- The parameters are bound, the expression is generated and returned, and the whole is
    verified; where that fails, something may have been written. -/
theorem body_outcome (ht : t.Unreliable view) (d : Definition) {h : Handle} {r : Routine}
    {g : Generator σ Value} (hr : (view g.target).routine? h = some r)
    (bodiless : r.body = none) :
    match ((body t d h).outcome g).1 with
    | .ok _ => ∃ is v next,
        Code (view g.target).callees (.ofParams d.proto.params r.values)
          (view g.target).nextValue d.body is v next ∧
        (view g.target).nextValue ≤ next ∧
        view ((body t d h).outcome g).2.target =
          (view g.target).fill h r (is ++ [.ret v]) next ∧
        (view ((body t d h).outcome g).2.target).check h = true
    | .error _ =>
        Drafted (view g.target) h r (view ((body t d h).outcome g).2.target) := by
  unfold body
  rw [outcome_bind, outcome_ask]
  rcases ht.openBody h g.target with as_sure | ⟨e, failed, kept⟩
  · rw [run_openBody hr bodiless] at as_sure
    obtain ⟨answer, opened⟩ := Prod.mk.inj as_sure
    simp only [answer, mapError_ok, outcome_bind, outcome_targetState, outcome_setScope,
      ht.params, opened, params_fill hr]
    -- The body is generated with the parameters bound.
    let bound : Generator σ Value :=
      ⟨((t.openBody h).run g.target).2, .ofParams d.proto.params r.values⟩
    obtain ⟨is, next, le, written, -, code⟩ :=
      writes_expression ht hr (view g.target).nextValue d.body bound [] opened rfl
    rcases generated : (expression t d.body).outcome bound with ⟨e | v, g'⟩ <;>
      rw [generated] at written code
    · exact written ▸ .begun _ le
    rw [List.nil_append] at written
    simp only [outcome_ask]
    rcases ht.ret v g'.target with as_sure | ⟨e, failed, kept⟩
    · rw [written, emitRet, run_push hr] at as_sure
      obtain ⟨answer, returned⟩ := Prod.mk.inj as_sure
      obtain ⟨kept, checked⟩ := ht.verify h ((t.ret v).run g'.target).2
      simp only [answer, mapError_ok, outcome_tell]
      cases verdict : ((t.verify h).run ((t.ret v).run g'.target).2).1
      · exact kept.trans returned ▸ .begun _ le
      · refine ⟨is, v, next, code v rfl, le, kept.trans returned, ?_⟩
        have accepted := checked verdict
        rw [← kept] at accepted
        exact accepted
    · simp only [failed, mapError_error]
      exact kept.trans written ▸ .begun _ le
  · simp only [failed, mapError_error]
    exact kept ▸ .closed

/-! ### Definitions -/

/-- A definition receives its code, or everything stays as it was. -/
theorem definition_outcome (ht : t.Unreliable view) (d : Definition) (g : Generator σ Value) :
    (g.scope = [] → ((definition t d).outcome g).2.scope = []) ∧
      match ((definition t d).outcome g).1 with
      | .ok h => (view g.target).Defines d h (view ((definition t d).outcome g).2.target)
      | .error _ => (view g.target).Keeps (view ((definition t d).outcome g).2.target) := by
  unfold definition
  simp only [outcome_bind, outcome_targetState, ht.lookup]
  obtain ⟨scope, declared⟩ := prototype_outcome ht d.proto g
  rcases prototyped : (prototype t d.proto).outcome g with ⟨e | h, g'⟩ <;>
    rw [prototyped] at scope declared <;> simp only at scope declared ⊢
  · exact ⟨fun empty => scope.trans empty, declared ▸ .refl _⟩
  simp only [ht.hasBody]
  generalize after : view g'.target = b at declared
  obtain ⟨r, hr, -, -, -⟩ := declared.here
  cases bodied : r.body with
  | some code =>
    -- Only a routine that was there before can have a body.
    have has : b.hasBody h = true := by simp [hasBody, hr, bodied]
    simp only [has, if_true, outcome_bind, outcome_throw]
    refine ⟨fun empty => scope.trans empty, ?_⟩
    rw [after]
    cases declared with
    | found named count => exact .refl _
    | new unnamed =>
      rw [routine?_declared, if_pos rfl] at hr
      cases hr
      cases bodied
  | none =>
    have hasNot : b.hasBody h = false := by simp [hasBody, hr, bodied]
    have written := body_outcome ht d (after.symm ▸ hr) bodied
    rw [after] at written
    simp only [hasNot, Bool.false_eq_true, if_false, outcome_bind, outcome_attempt,
      outcome_setScope]
    rcases body : (body t d h).outcome g' with ⟨e | _, g''⟩ <;>
      rw [body] at written <;> simp only at written ⊢
    · -- What was written is taken back, with the routine if it was new.
      refine ⟨fun _ => rfl, ?_⟩
      cases declared with
      | found named count =>
        simp only [named, Option.isSome_some, if_true, outcome_bind, outcome_tell, outcome_throw,
          ht.discardBody]
        exact written.discardBody hr bodied
      | new unnamed =>
        simp only [unnamed, Option.isSome_none, Bool.false_eq_true, if_false, outcome_bind,
          outcome_tell, outcome_throw, ht.abandon]
        exact written.abandon
    · obtain ⟨is, v, next, code, le, filled, checked⟩ := written
      exact ⟨fun _ => rfl, .intro declared hr bodied code le filled checked⟩

end Gen

end Generator

end Reckon
