/-
  Slots and live routines.

  Every query of an assembly is settled by which routine stands in which slot.  This
  module says so for the search by name and for the list of live routines, and says what
  that list becomes when a routine is added at the end, when one is replaced and when the
  last one is given up.
-/
import Reckon.Assembly.Emit
import Reckon.Assembly.Check

namespace Reckon.Assembly

variable {a b : Assembly} {h k : Handle} {r : Routine} {name : String}

/-! ### Routines in slots -/

theorem lt_size_of_routine? (hr : a.routine? h = some r) : h < a.slots.size := by
  apply Nat.lt_of_not_le
  intro out
  simp [routine?, Array.getElem?_eq_none out] at hr

theorem slots_of_routine? (hr : a.routine? h = some r) : a.slots[h]? = some (some r) := by
  cases hs : a.slots[h]? with
  | none => simp [routine?, hs] at hr
  | some slot => simpa [routine?, hs] using hr

theorem routine?_size (a : Assembly) : a.routine? a.slots.size = none := by
  simp [routine?]

theorem routine?_congr (same : a.slots = b.slots) : a.routine? = b.routine? := by
  funext h
  simp only [routine?, same]

theorem routine?_push {slot : Option Routine} (eq : b.slots = a.slots.push slot)
    (k : Handle) : b.routine? k = if k = a.slots.size then slot else a.routine? k := by
  simp only [routine?, eq, Array.getElem?_push]
  split <;> rfl

theorem routine?_set {slot : Option Routine} (hr : a.routine? h = some r)
    (eq : b.slots = a.slots.setIfInBounds h slot) (k : Handle) :
    b.routine? k = if k = h then slot else a.routine? k := by
  simp only [routine?, eq, Array.getElem?_setIfInBounds]
  by_cases same : k = h
  · subst same
    simp [lt_size_of_routine? hr]
  · simp [same, Ne.symm same]

theorem setIfInBounds_routine? (hr : a.routine? h = some r) :
    a.slots.setIfInBounds h (some r) = a.slots := by
  apply Array.ext_getElem?
  intro k
  rw [Array.getElem?_setIfInBounds]
  split
  · rename_i same
    subst same
    rw [slots_of_routine? hr]
    simp [lt_size_of_routine? hr]
  · rfl

/-! ### Search by name -/

theorem lookup_eq_some_iff :
    a.lookup name = some h ↔
      name ≠ "" ∧ (∃ r, a.routine? h = some r ∧ r.name = name) ∧
        ∀ k < h, ∀ r, a.routine? k = some r → r.name ≠ name := by
  unfold lookup
  by_cases empty : name = ""
  · simp [empty]
  rw [if_neg (by simpa using empty), Array.findIdx?_eq_some_iff_getElem]
  constructor
  · rintro ⟨lt, here, before⟩
    refine ⟨empty, ?_, ?_⟩
    · obtain ⟨r, hr, same⟩ := (Option.any_eq_true _ _).1 here
      exact ⟨r, by simp [routine?, Array.getElem?_eq_getElem lt, hr], by simpa using same⟩
    · intro k hk r hr same
      have := before k hk
      rw [Array.getElem_eq_iff.2 (slots_of_routine? hr)] at this
      simp [same] at this
  · rintro ⟨-, ⟨r, hr, same⟩, before⟩
    refine ⟨lt_size_of_routine? hr, ?_, ?_⟩
    · rw [Array.getElem_eq_iff.2 (slots_of_routine? hr)]
      simp [same]
    · intro k hk
      have lt : k < a.slots.size := Nat.lt_trans hk (lt_size_of_routine? hr)
      cases slot : a.slots[k] with
      | none => simp
      | some s =>
        have := before k hk s (by simp [routine?, Array.getElem?_eq_getElem lt, slot])
        simpa using this

theorem lookup_eq_none_iff :
    a.lookup name = none ↔ name = "" ∨ ∀ h r, a.routine? h = some r → r.name ≠ name := by
  unfold lookup
  by_cases empty : name = ""
  · simp [empty]
  rw [if_neg (by simpa using empty), Array.findIdx?_eq_none_iff]
  constructor
  · intro none_named
    right
    intro h r hr same
    have := none_named _ (Array.mem_of_getElem? (slots_of_routine? hr))
    simp [same] at this
  · rintro (eq | unnamed) slot member
    · exact absurd eq empty
    · obtain ⟨h, lt, rfl⟩ := Array.mem_iff_getElem.1 member
      cases slot : a.slots[h] with
      | none => rfl
      | some s =>
        have := unnamed h s (by simp [routine?, Array.getElem?_eq_getElem lt, slot])
        simpa using this

theorem routine?_of_lookup (found : a.lookup name = some h) :
    ∃ r, a.routine? h = some r ∧ r.name = name :=
  (lookup_eq_some_iff.1 found).2.1

/-- The search by name depends on the names in the slots alone. -/
theorem lookup_congr (same : ∀ h, (a.routine? h).map (·.name) = (b.routine? h).map (·.name))
    (name : String) : a.lookup name = b.lookup name := by
  have transfer : ∀ {c d : Assembly} {k : Handle},
      (∀ h, (c.routine? h).map (·.name) = (d.routine? h).map (·.name)) →
      ∀ r, c.routine? k = some r → ∃ s, d.routine? k = some s ∧ s.name = r.name := by
    intro c d k agree r hr
    have := agree k
    rw [hr, Option.map_some] at this
    obtain ⟨s, hs, eq⟩ := Option.map_eq_some_iff.1 this.symm
    exact ⟨s, hs, eq⟩
  have back := fun h => (same h).symm
  cases found : b.lookup name with
  | none =>
    rw [lookup_eq_none_iff] at found ⊢
    refine found.imp_right fun unnamed h r hr => ?_
    obtain ⟨s, hs, eq⟩ := transfer same r hr
    exact eq ▸ unnamed h s hs
  | some h =>
    rw [lookup_eq_some_iff] at found ⊢
    obtain ⟨named, ⟨r, hr, eq⟩, before⟩ := found
    refine ⟨named, ?_, fun k hk r hr => ?_⟩
    · obtain ⟨s, hs, eq'⟩ := transfer back r hr
      exact ⟨s, hs, eq'.trans eq⟩
    · obtain ⟨s, hs, eq'⟩ := transfer same r hr
      exact eq' ▸ before k hk s hs

/-! ### Live routines in order -/

theorem liveFrom_append (first : Handle) (left right : List (Option Routine)) :
    liveFrom first (left ++ right) =
      liveFrom first left ++ liveFrom (first + left.length) right := by
  induction left generalizing first with
  | nil => rfl
  | cons slot rest ih =>
    have shift : first + 1 + rest.length = first + (slot :: rest).length := by
      rw [List.length_cons, Nat.add_assoc, Nat.add_comm 1]
    cases slot <;> simp [liveFrom, ih, shift]

theorem liveFrom_set (first : Handle) {slots : List (Option Routine)} {i : Nat}
    (hr : slots[i]? = some (some r)) :
    ∃ front back, liveFrom first slots = front ++ (first + i, r) :: back ∧
      ∀ s, liveFrom first (slots.set i (some s)) = front ++ (first + i, s) :: back := by
  obtain ⟨lt, here⟩ := List.getElem?_eq_some_iff.1 hr
  have split : slots = slots.take i ++ some r :: slots.drop (i + 1) := by
    rw [← here, List.getElem_cons_drop, List.take_append_drop]
  have length : (slots.take i).length = i := List.length_take_of_le (Nat.le_of_lt lt)
  refine ⟨liveFrom first (slots.take i), liveFrom (first + i + 1) (slots.drop (i + 1)), ?_, ?_⟩
  · conv => lhs; rw [split]
    rw [liveFrom_append, length]
    rfl
  · intro s
    rw [List.set_eq_take_append_cons_drop, if_pos lt, liveFrom_append, length]
    rfl

theorem mem_liveFrom (first : Handle) (slots : List (Option Routine)) :
    (h, r) ∈ liveFrom first slots ↔ ∃ i, h = first + i ∧ slots[i]? = some (some r) := by
  induction slots generalizing first with
  | nil => simp [liveFrom]
  | cons slot rest ih =>
    have tail : (∃ i, h = first + 1 + i ∧ rest[i]? = some (some r)) ↔
        ∃ i, h = first + (i + 1) ∧ (slot :: rest)[i + 1]? = some (some r) := by
      simp [Nat.add_assoc, Nat.add_comm 1]
    have head : (∃ i, h = first + i ∧ (slot :: rest)[i]? = some (some r)) ↔
        (h = first ∧ slot = some r) ∨
          ∃ i, h = first + (i + 1) ∧ (slot :: rest)[i + 1]? = some (some r) := by
      constructor
      · rintro ⟨_ | i, eq, at_i⟩
        · exact Or.inl ⟨eq, by simpa using at_i⟩
        · exact Or.inr ⟨i, eq, at_i⟩
      · rintro (⟨eq, at_0⟩ | ⟨i, eq, at_i⟩)
        · exact ⟨0, eq, by simpa using at_0⟩
        · exact ⟨i + 1, eq, at_i⟩
    rw [head, ← tail, ← ih]
    cases slot with
    | none => simp [liveFrom]
    | some s => simp [liveFrom, eq_comm]

theorem mem_live : (h, r) ∈ a.live ↔ a.routine? h = some r := by
  simp only [live, mem_liveFrom, Nat.zero_add, exists_eq_left', Array.getElem?_toList]
  exact ⟨fun at_h => by simp [routine?, at_h], slots_of_routine?⟩

theorem pairwise_liveFrom (first : Handle) (slots : List (Option Routine)) :
    (liveFrom first slots).Pairwise fun x y => x.1 < y.1 := by
  induction slots generalizing first with
  | nil => exact .nil
  | cons slot rest ih =>
    cases slot with
    | none => exact ih (first + 1)
    | some r =>
      refine List.pairwise_cons.2 ⟨fun entry member => ?_, ih (first + 1)⟩
      obtain ⟨i, eq, -⟩ := (mem_liveFrom (first + 1) rest).1 member
      rw [eq]
      exact Nat.lt_of_lt_of_le (Nat.lt_succ_self first) (Nat.le_add_right _ i)

/-- The live routines stand in the order of their handles. -/
theorem pairwise_live (a : Assembly) : a.live.Pairwise fun x y => x.1 < y.1 :=
  pairwise_liveFrom 0 a.slots.toList

theorem live_congr (same : a.slots = b.slots) : a.live = b.live := by
  simp only [live, same]

/-- An added routine is the last one alive. -/
theorem live_push (eq : b.slots = a.slots.push (some r)) :
    b.live = a.live ++ [(a.slots.size, r)] := by
  simp [live, eq, liveFrom_append, liveFrom]

theorem live_push_none (eq : b.slots = a.slots.push none) : b.live = a.live := by
  simp [live, eq, liveFrom_append, liveFrom]

/-- A routine that is replaced keeps its place. -/
theorem live_set (hr : a.routine? h = some r) :
    ∃ front back, a.live = front ++ (h, r) :: back ∧
      ∀ (b : Assembly) (s : Routine), b.slots = a.slots.setIfInBounds h (some s) →
        b.live = front ++ (h, s) :: back := by
  have at_h : a.slots.toList[h]? = some (some r) := by
    simpa using slots_of_routine? hr
  obtain ⟨front, back, before, after⟩ := liveFrom_set 0 at_h
  rw [Nat.zero_add] at before after
  refine ⟨front, back, before, fun b s eq => ?_⟩
  rw [live, eq, Array.toList_setIfInBounds]
  exact after s

end Reckon.Assembly
