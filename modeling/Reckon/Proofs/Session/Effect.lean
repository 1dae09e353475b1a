/-
  What constructs do to an assembly.

  `Effect` puts together what handling one construct may do: a definition and a
  declaration that succeed change the assembly as `Defines` and `Declares` say, and all
  else leaves its routines as they were.

  The main statement of this module is `Effect.grows`: every construct keeps every live
  routine, its body included if it has one.  Between constructs an assembly is
  `Consistent`, that is, names are unique and every live routine passes the check;
  `Effect.consistent` says that constructs keep it so.
-/
import Reckon.Proofs.Generate.Definition
import Reckon.Session.Basic

namespace Reckon

/-! ### Growth -/

namespace Routine

/-- `s` is `r`, or `r` had no body and `s` is `r` with one. -/
inductive Completes (r : Routine) : Routine → Prop where
  | same : Completes r r
  | body (bodiless : r.body = none) (code : Array Instruction) :
    Completes r { r with body := some code }

variable {r s : Routine}

theorem Completes.name_eq (completes : r.Completes s) : s.name = r.name := by
  cases completes <;> rfl

theorem Completes.params_eq (completes : r.Completes s) : s.params = r.params := by
  cases completes <;> rfl

end Routine

namespace Assembly

variable {a b c : Assembly} {h k : Handle} {r s : Routine} {p : Prototype} {d : Definition}

/-- Every live routine of `a` is alive in `b`, as it was or with a body given to it. -/
def Grows (a b : Assembly) : Prop :=
  ∀ h r, a.routine? h = some r → ∃ s, b.routine? h = some s ∧ r.Completes s

theorem Grows.refl (a : Assembly) : a.Grows a := fun _ r hr => ⟨r, hr, .same⟩

theorem Grows.trans (first : a.Grows b) (second : b.Grows c) : a.Grows c := by
  intro h r hr
  obtain ⟨s, hs, completes⟩ := first h r hr
  obtain ⟨u, hu, completes'⟩ := second h s hs
  refine ⟨u, hu, ?_⟩
  cases completes with
  | same => exact completes'
  | body bodiless code =>
    cases completes' with
    | same => exact .body bodiless code
    | body absurd _ => exact nomatch absurd

theorem Keeps.routine?_eq (keeps : a.Keeps b) : b.routine? = a.routine? := by
  rcases keeps.slots with same | pushed
  · exact routine?_congr same
  · funext k
    rw [routine?_push pushed]
    split
    · rename_i last
      rw [last, routine?_size]
    · rfl

theorem Keeps.live_eq (keeps : a.Keeps b) : b.live = a.live :=
  keeps.slots.elim live_congr live_push_none

theorem Keeps.grows (keeps : a.Keeps b) : a.Grows b := by
  intro h r hr
  exact ⟨r, by rw [keeps.routine?_eq, hr], .same⟩

theorem Declares.grows (declares : a.Declares p h b) : a.Grows b := by
  intro k r hr
  by_cases eq : k = h
  · subst eq
    obtain ⟨s, hs, -, -, ⟨before, -⟩ | ⟨absurd, -⟩⟩ := declares.here
    · rw [hr] at before
      cases before
      exact ⟨r, hs, .same⟩
    · rw [hr] at absurd
      cases absurd
  · exact ⟨r, (declares.elsewhere eq).trans hr, .same⟩

theorem grows_fill {code : List Instruction} {next : Nat} (hr : a.routine? h = some r)
    (bodiless : r.body = none) : a.Grows (a.fill h r code next) := by
  intro k s hs
  rw [routine?_fill hr]
  by_cases eq : k = h
  · rw [if_pos eq]
    rw [eq, hr] at hs
    cases hs
    exact ⟨_, rfl, .body bodiless _⟩
  · rw [if_neg eq]
    exact ⟨s, hs, .same⟩

theorem Defines.grows (defines : a.Defines d h c) : a.Grows c := by
  obtain ⟨declares, here, bodiless, -, -, rfl, -⟩ := defines
  exact declares.grows.trans (grows_fill here bodiless)

/-! ### Consistency -/

/-- Two live routines of one name that is not empty are the same. -/
def UniqueNames (a : Assembly) : Prop :=
  ∀ h k r s, a.routine? h = some r → a.routine? k = some s → r.name = s.name →
    r.name ≠ "" → h = k

structure Consistent (a : Assembly) : Prop where
  unique : a.UniqueNames
  checked : ∀ h r, a.routine? h = some r → a.check h = true

theorem UniqueNames.lookup (unique : a.UniqueNames) (hr : a.routine? h = some r)
    (named : r.name ≠ "") : a.lookup r.name = some h := by
  rw [lookup_eq_some_iff]
  refine ⟨named, ⟨r, hr, rfl⟩, fun k lt s hs same => ?_⟩
  exact absurd (unique h k r s hr hs same.symm named) (Nat.ne_of_gt lt)

/-- A call that fits goes on fitting while routines are only added and completed. -/
theorem Grows.calleeFits (grows : a.Grows b) {i : Instruction} (fits : a.calleeFits i = true) :
    b.calleeFits i = true := by
  cases i with
  | call dest callee args =>
    simp only [Assembly.calleeFits] at fits ⊢
    cases target : a.routine? callee with
    | none => simp [target] at fits
    | some r =>
      obtain ⟨s, hs, completes⟩ := grows callee r target
      simpa [hs, target, completes.params_eq] using fits
  | _ => rfl

theorem Grows.checkBody (grows : a.Grows b) {is : List Instruction} {known : List Value}
    (checked : a.checkBody known is = true) : b.checkBody known is = true := by
  induction is generalizing known with
  | nil => exact checked
  | cons i rest ih =>
    simp only [Assembly.checkBody, Bool.and_eq_true] at checked ⊢
    obtain ⟨⟨fit, fits⟩, rest_checked⟩ := checked
    refine ⟨⟨fit, grows.calleeFits fits⟩, ?_⟩
    cases defined : i.dest? with
    | none => simpa only [defined] using rest_checked
    | some dest =>
      rw [defined] at rest_checked
      exact ih rest_checked

/-- A routine that is well-formed and stays as it is stays well-formed. -/
theorem Grows.check (grows : a.Grows b) (hr : a.routine? h = some r)
    (hs : b.routine? h = some r) (checked : a.check h = true) : b.check h = true := by
  simp only [Assembly.check, hr, hs] at checked ⊢
  cases body : r.body with
  | none => rfl
  | some code =>
    rw [body] at checked
    exact grows.checkBody checked

theorem UniqueNames.of_subset (unique : a.UniqueNames)
    (subset : ∀ h r, b.routine? h = some r → ∃ s, a.routine? h = some s ∧ s.name = r.name) :
    b.UniqueNames := by
  intro h k r s hr hs eq named
  obtain ⟨u, hu, name⟩ := subset h r hr
  obtain ⟨v, hv, name'⟩ := subset k s hs
  exact unique h k u v hu hv (name.trans (eq.trans name'.symm)) (name ▸ named)

/-- Whether names are unique depends on the names in the slots alone. -/
theorem UniqueNames.congr (unique : a.UniqueNames)
    (same : ∀ h, (b.routine? h).map (·.name) = (a.routine? h).map (·.name)) :
    b.UniqueNames := by
  apply unique.of_subset
  intro h r hr
  have names := same h
  rw [hr, Option.map_some] at names
  exact Option.map_eq_some_iff.1 names.symm

theorem Declares.unique (declares : a.Declares p h b) (unique : a.UniqueNames) :
    b.UniqueNames := by
  cases declares with
  | found named count => exact unique
  | new unnamed =>
    intro h k r s hr hs eq named
    -- No routine of `a` has the name of the new one.
    have other : ∀ {k : Handle} {u : Routine}, a.routine? k = some u → u.name = p.name →
        p.name = "" := by
      intro k u hu name
      rcases lookup_eq_none_iff.1 unnamed with empty | fresh
      · exact empty
      · exact absurd name (fresh k u hu)
    rw [routine?_declared] at hr hs
    by_cases last : h = a.slots.size <;> by_cases last' : k = a.slots.size
    · exact last.trans last'.symm
    · rw [if_pos last] at hr
      rw [if_neg last'] at hs
      cases hr
      exact absurd (other hs eq.symm) named
    · rw [if_neg last] at hr
      rw [if_pos last'] at hs
      cases hs
      exact absurd (eq.trans (other hr eq)) named
    · rw [if_neg last] at hr
      rw [if_neg last'] at hs
      exact unique h k r s hr hs eq named

theorem unique_fill {code : List Instruction} {next : Nat} (hr : a.routine? h = some r)
    (unique : a.UniqueNames) : (a.fill h r code next).UniqueNames := by
  apply unique.congr
  intro k
  rw [routine?_fill hr]
  split
  · rename_i same
    rw [same, hr]
    rfl
  · rfl

theorem Keeps.consistent (keeps : a.Keeps b) (consistent : a.Consistent) : b.Consistent where
  unique := consistent.unique.congr fun h => by rw [keeps.routine?_eq]
  checked h r hr := by
    have before : a.routine? h = some r := keeps.routine?_eq ▸ hr
    exact keeps.grows.check before hr (consistent.checked h r before)

theorem Declares.consistent (declares : a.Declares p h b) (consistent : a.Consistent) :
    b.Consistent where
  unique := declares.unique consistent.unique
  checked k r hr := by
    by_cases eq : k = h
    · subst eq
      obtain ⟨s, hs, -, -, ⟨before, -⟩ | ⟨-, bodiless, -⟩⟩ := declares.here
      · exact declares.grows.check before hs (consistent.checked k s before)
      · simp [Assembly.check, hs, bodiless]
    · have before : a.routine? k = some r := (declares.elsewhere eq).symm.trans hr
      exact declares.grows.check before hr (consistent.checked k r before)

theorem Defines.consistent (defines : a.Defines d h c) (consistent : a.Consistent) :
    c.Consistent := by
  obtain ⟨declares, here, bodiless, -, -, rfl, checked⟩ := defines
  have between := declares.consistent consistent
  refine ⟨unique_fill here between.unique, fun k r hr => ?_⟩
  by_cases eq : k = h
  · rw [eq]
    exact checked
  · have before := hr
    rw [routine?_fill here, if_neg eq] at before
    exact (grows_fill here bodiless).check before hr (between.checked k r before)

/-! ### Effects -/

inductive Effect (a : Assembly) : Outcome → Assembly → Prop where
  | definition {d : Definition} {h : Handle} {b : Assembly} (defines : a.Defines d h b)
    (code : String) : Effect a (.definition d.proto.name code) b
  | external {p : Prototype} {h : Handle} {b : Assembly} (declares : a.Declares p h b)
    (code : String) : Effect a (.external p.name code) b
  | expression {b : Assembly} (keeps : a.Keeps b) (code : String) (value : Option Float)
    (output : String) : Effect a (.expression code value output) b
  | skipped : Effect a .skipped a
  | failed {b : Assembly} (keeps : a.Keeps b) (e : Diagnostic) : Effect a (.failed e) b

variable {o : Outcome}

/-- Handling a construct keeps every live routine, and its body if it has one. -/
theorem Effect.grows (effect : a.Effect o b) : a.Grows b := by
  cases effect with
  | definition defines code => exact defines.grows
  | external declares code => exact declares.grows
  | expression keeps => exact keeps.grows
  | skipped => exact .refl a
  | failed keeps => exact keeps.grows

/-- Handling a construct keeps an assembly consistent. -/
theorem Effect.consistent (effect : a.Effect o b) (consistent : a.Consistent) :
    b.Consistent := by
  cases effect with
  | definition defines code => exact defines.consistent consistent
  | external declares code => exact declares.consistent consistent
  | expression keeps => exact keeps.consistent consistent
  | skipped => exact consistent
  | failed keeps => exact keeps.consistent consistent

theorem consistent_empty (moduleName : String) (depthLimit : Nat) :
    (empty moduleName depthLimit).Consistent where
  unique _ _ _ _ hr := nomatch hr
  checked _ _ hr := nomatch hr

end Assembly

end Reckon
