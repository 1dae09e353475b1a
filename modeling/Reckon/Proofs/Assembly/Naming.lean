/-
  Written names of values.

  A parameter is written by its name, with the number of its value behind it if the name
  stands before it already, and every other value by its number.  Numbers differ, and a name
  does not begin with a digit.  So two values can only be written alike if both are parameters
  and the name of one goes on, where that of the other ends, with digits of the other's number
  (`Routine.Clash`).

  The main statement is `Routine.Ordered.valueName_eq_iff`.
-/
import Reckon.Proofs.Assembly.Built
import Reckon.Proofs.Token.Tiling

namespace Reckon

namespace Routine

variable {r : Routine} {next i j : Nat} {v w : Value} {x y : String}

/-! ### Parameters and their numbers -/

structure Parameter (r : Routine) (i : Nat) (v : Value) (x : String) : Prop where
  value : r.values[i]? = some v
  name : r.params[i]? = some x

/-- What is written behind the name of a parameter: its number if the name stands before it
    already. -/
def suffix (r : Routine) (i : Nat) (v : Value) (x : String) : String :=
  if x ∈ r.params.take i then toString v.id else ""

theorem suffix_repeated (repeated : x ∈ r.params.take i) : r.suffix i v x = toString v.id :=
  if_pos repeated

theorem Ordered.nodup_ids (ordered : r.Ordered next) : (r.defined.map (·.id)).Nodup :=
  ordered.ascending.imp Nat.ne_of_lt

theorem Ordered.nodup_defined (ordered : r.Ordered next) : r.defined.Nodup :=
  ordered.nodup_ids.of_map

theorem Ordered.nodup_values (ordered : r.Ordered next) : r.values.Nodup :=
  (List.nodup_append.1 ordered.nodup_defined).1

theorem Ordered.eq_of_id (ordered : r.Ordered next) (hv : v ∈ r.defined) (hw : w ∈ r.defined)
    (same : v.id = w.id) : v = w :=
  List.inj_on_of_nodup_map ordered.nodup_ids hv hw same

theorem Ordered.exists_parameter (ordered : r.Ordered next) (member : v ∈ r.values) :
    ∃ i x, r.Parameter i v x := by
  obtain ⟨i, within, rfl⟩ := List.getElem_of_mem member
  have within' : i < r.params.length := ordered.count ▸ within
  exact ⟨i, r.params[i], List.getElem?_eq_getElem within, List.getElem?_eq_getElem within'⟩

theorem Parameter.mem_values (parameter : r.Parameter i v x) : v ∈ r.values :=
  List.mem_of_getElem? parameter.value

theorem Parameter.mem_defined (parameter : r.Parameter i v x) : v ∈ r.defined :=
  List.mem_append_left _ parameter.mem_values

/-! ### Written names -/

theorem map_fst_distinctNames (seen : List String) (entries : List (Value × String)) :
    (distinctNames seen entries).map Prod.fst = entries.map Prod.fst := by
  induction entries generalizing seen with
  | nil => rfl
  | cons entry entries ih => rw [distinctNames, List.map_cons, List.map_cons, ih]

theorem getElem?_distinctNames (seen : List String) {entries : List (Value × String)}
    (here : entries[i]? = some (v, x)) :
    (distinctNames seen entries)[i]? =
      some (v, if x ∈ seen ∨ x ∈ (entries.take i).map Prod.snd then x ++ toString v.id else x) := by
  induction entries generalizing seen i with
  | nil => cases here
  | cons entry entries ih =>
    cases i with
    | zero =>
      cases here
      simp [distinctNames]
    | succ i =>
      rw [List.getElem?_cons_succ] at here
      rw [distinctNames, List.getElem?_cons_succ, ih _ here, List.take_succ_cons, List.map_cons]
      simp only [List.mem_cons, or_assoc, or_left_comm]

theorem lookup_of_mem {names : List (Value × String)} (unique : (names.map Prod.fst).Nodup)
    (member : (v, x) ∈ names) : names.lookup v = some x := by
  obtain ⟨front, back, rfl⟩ := List.mem_iff_append.1 member
  rw [List.map_append, List.map_cons] at unique
  refine List.lookup_eq_some_iff.2 ⟨front, back, rfl, fun entry earlier => ?_⟩
  rw [bne_iff_ne]
  rintro rfl
  exact (List.nodup_append.1 unique).2.2 _ (List.mem_map_of_mem earlier) _ List.mem_cons_self rfl

theorem Ordered.map_fst_paramNames (ordered : r.Ordered next) :
    r.paramNames.map Prod.fst = r.values := by
  rw [paramNames, map_fst_distinctNames, List.map_fst_zip (Nat.le_of_eq ordered.count)]

theorem Ordered.valueName_of_mem (ordered : r.Ordered next) (member : (v, x) ∈ r.paramNames) :
    valueName r.paramNames v = "%" ++ x := by
  have unique : (r.paramNames.map Prod.fst).Nodup := by
    rw [ordered.map_fst_paramNames]
    exact ordered.nodup_values
  rw [valueName, lookup_of_mem unique member]

theorem Ordered.valueName_parameter (ordered : r.Ordered next) (parameter : r.Parameter i v x) :
    valueName r.paramNames v = "%" ++ (x ++ r.suffix i v x) := by
  have entry : (r.values.zip r.params)[i]? = some (v, x) :=
    List.getElem?_zip_eq_some.2 ⟨parameter.value, parameter.name⟩
  have names : ((r.values.zip r.params).take i).map Prod.snd = r.params.take i := by
    rw [List.map_take, List.map_snd_zip (Nat.le_of_eq ordered.count.symm)]
  have here := getElem?_distinctNames [] entry
  rw [names] at here
  simp only [List.not_mem_nil, false_or] at here
  rw [ordered.valueName_of_mem (List.mem_of_getElem? here), suffix]
  split
  · rfl
  · rw [String.append_empty]

/-- A result is written by its number. -/
theorem Ordered.valueName_result (ordered : r.Ordered next) (result : v ∉ r.values) :
    valueName r.paramNames v = "%" ++ toString v.id := by
  have none : r.paramNames.lookup v = none := by
    rw [List.lookup_eq_none_iff]
    intro entry member
    rw [← ordered.map_fst_paramNames] at result
    rw [bne_iff_ne]
    rintro rfl
    exact result (List.mem_map_of_mem member)
  rw [valueName, none]

/-- In the signature the parameters are written as where they are used. -/
theorem Ordered.signature_eq (ordered : r.Ordered next) :
    signature r.paramNames =
      ", ".intercalate (r.values.map fun v => "double " ++ valueName r.paramNames v) := by
  rw [signature, ← ordered.map_fst_paramNames, List.map_map]
  congr 1
  apply List.map_congr_left
  intro entry member
  rw [Function.comp_apply, ordered.valueName_of_mem member, ← String.append_assoc]
  rfl

/-! ### Clashes -/

/-- The name of the parameter `w` is a repeat, and the name of the parameter `v` goes on with
    the first digits of the number of `w`, up to those that are written behind it. -/
inductive Clash (r : Routine) (v w : Value) : Prop where
  | intro {i j : Nat} {x y digits : String} (first : r.Parameter i v x)
    (second : r.Parameter j w y) (repeated : y ∈ r.params.take j) (longer : x = y ++ digits)
    (more : digits ≠ "") (number : digits ++ r.suffix i v x = toString w.id)

theorem Clash.valueName_eq (clash : r.Clash v w) (ordered : r.Ordered next) :
    valueName r.paramNames v = valueName r.paramNames w := by
  obtain ⟨first, second, repeated, longer, -, number⟩ := clash
  rw [ordered.valueName_parameter first, ordered.valueName_parameter second,
    suffix_repeated repeated, ← number, longer, String.append_assoc]

theorem toString_ne_empty (n : Nat) : toString n ≠ "" := by
  intro empty
  have digits : Nat.toDigits 10 n = [] := by
    rw [← Nat.toList_repr]
    exact congrArg String.toList empty
  exact absurd digits (List.ne_nil_of_length_pos Nat.length_toDigits_pos)

/-- Of two parameters of one name the later one is written with its number. -/
theorem Parameter.suffix_ne (first : r.Parameter i v x) (lt : i < j) (other : v.id ≠ w.id) :
    r.suffix i v x ≠ r.suffix j w x := by
  have repeated : x ∈ r.params.take j := by
    obtain ⟨within, eq⟩ := List.getElem?_eq_some_iff.1 first.name
    exact List.mem_take_iff_getElem.2 ⟨i, by omega, eq⟩
  rw [suffix_repeated repeated, suffix]
  split
  · exact fun same => other (Nat.repr_inj.1 same)
  · exact (toString_ne_empty w.id).symm

theorem clash_of_longer (first : r.Parameter i v x) (second : r.Parameter j w y)
    {more : List Char} (begun : more ≠ []) (longer : x.toList = y.toList ++ more)
    (rest : (r.suffix j w y).toList = more ++ (r.suffix i v x).toList) : r.Clash v w := by
  have repeated : y ∈ r.params.take j := by
    by_contra new
    rw [suffix, if_neg new] at rest
    exact begun (List.append_eq_nil_iff.1 rest.symm).1
  have name : x = y ++ String.ofList more := by
    rw [← String.toList_inj, String.toList_append, String.toList_ofList, longer]
  have number : String.ofList more ++ r.suffix i v x = toString w.id := by
    rw [← suffix_repeated repeated, ← String.toList_inj, String.toList_append,
      String.toList_ofList, rest]
  exact .intro first second repeated name (by simpa using begun) number

/-- Two parameters that are written alike clash one way or the other. -/
theorem Ordered.clash_of_parameters (ordered : r.Ordered next) (first : r.Parameter i v x)
    (second : r.Parameter j w y) (ne : v ≠ w)
    (alike : x ++ r.suffix i v x = y ++ r.suffix j w y) : r.Clash v w ∨ r.Clash w v := by
  have texts := congrArg String.toList alike
  rw [String.toList_append, String.toList_append] at texts
  have other : v.id ≠ w.id := fun same =>
    ne (ordered.eq_of_id first.mem_defined second.mem_defined same)
  by_cases same : x = y
  · subst same
    have suffixes := String.toList_inj.1 (List.append_cancel_left texts)
    rcases Nat.lt_trichotomy i j with lt | rfl | gt
    · exact absurd suffixes (first.suffix_ne lt other)
    · exact absurd (Option.some.inj (first.value.symm.trans second.value)) ne
    · exact absurd suffixes.symm (second.suffix_ne gt other.symm)
  · -- One of the two names begins with the other, and what is more of it is the number.
    rcases List.append_eq_append_iff.1 texts with ⟨more, longer, rest⟩ | ⟨more, longer, rest⟩
    · refine Or.inr (clash_of_longer second first ?_ longer rest)
      rintro rfl
      exact same (String.toList_inj.1 (by rw [longer, List.append_nil]))
    · refine Or.inl (clash_of_longer first second ?_ longer rest)
      rintro rfl
      exact same (String.toList_inj.1 (by rw [longer, List.append_nil]))

/-- A name is not a number. -/
theorem ne_toString_of_isWord {text : String} (word : IsWord x.toList) (n : Nat) :
    x ++ text ≠ toString n := by
  intro same
  obtain ⟨c, rest, eq, letter, -⟩ := word
  have digits := congrArg String.toList same
  rw [String.toList_append, eq, show (toString n).toList = _ from Nat.toList_repr] at digits
  have first : c ∈ Nat.toDigits 10 n := by
    rw [← digits]
    exact List.mem_cons_self
  have digit : c.isDigit = true := Nat.isDigit_of_mem_toDigits (by decide) (by decide) first
  rw [not_isLetter_of_isDigit digit] at letter
  cases letter

/-- Values are written alike if they are parameters that clash, and not otherwise. -/
theorem Ordered.valueName_eq_iff (ordered : r.Ordered next)
    (words : ∀ x ∈ r.params, IsWord x.toList) (hv : v ∈ r.defined) (hw : w ∈ r.defined)
    (ne : v ≠ w) : valueName r.paramNames v = valueName r.paramNames w ↔
      r.Clash v w ∨ r.Clash w v := by
  constructor
  swap
  · rintro (clash | clash)
    · exact clash.valueName_eq ordered
    · exact (clash.valueName_eq ordered).symm
  intro alike
  have word : ∀ {i v x}, r.Parameter i v x → IsWord x.toList := fun parameter =>
    words _ (List.mem_of_getElem? parameter.name)
  have cancel : ∀ {s t : String}, "%" ++ s = "%" ++ t → s = t := fun same => by simpa using same
  by_cases first : v ∈ r.values <;> by_cases second : w ∈ r.values
  · obtain ⟨i, x, first⟩ := ordered.exists_parameter first
    obtain ⟨j, y, second⟩ := ordered.exists_parameter second
    rw [ordered.valueName_parameter first, ordered.valueName_parameter second] at alike
    exact ordered.clash_of_parameters first second ne (cancel alike)
  · obtain ⟨i, x, first⟩ := ordered.exists_parameter first
    rw [ordered.valueName_parameter first, ordered.valueName_result second] at alike
    exact absurd (cancel alike) (ne_toString_of_isWord (word first) w.id)
  · obtain ⟨j, y, second⟩ := ordered.exists_parameter second
    rw [ordered.valueName_result first, ordered.valueName_parameter second] at alike
    exact absurd (cancel alike).symm (ne_toString_of_isWord (word second) v.id)
  · rw [ordered.valueName_result first, ordered.valueName_result second] at alike
    exact absurd (ordered.eq_of_id hv hw (Nat.repr_inj.1 (cancel alike))) ne

/-- Where no parameter has the name of another, nothing clashes. -/
theorem Clash.not_nodup (clash : r.Clash v w) : ¬ r.params.Nodup := by
  obtain ⟨-, second, repeated, -, -, -⟩ := clash
  obtain ⟨i, earlier, eq⟩ := List.mem_take_iff_getElem.1 repeated
  obtain ⟨within, eq'⟩ := List.getElem?_eq_some_iff.1 second.name
  intro distinct
  have same := (List.Nodup.getElem_inj_iff distinct).1 (eq.trans eq'.symm)
  omega

theorem Ordered.nodup_valueName (ordered : r.Ordered next)
    (words : ∀ x ∈ r.params, IsWord x.toList) (distinct : r.params.Nodup) :
    (r.defined.map (valueName r.paramNames)).Nodup := by
  refine (List.nodup_map_iff_inj_on ordered.nodup_defined).2 fun v hv w hw alike => ?_
  by_contra ne
  rcases (ordered.valueName_eq_iff words hv hw ne).1 alike with clash | clash
  · exact clash.not_nodup distinct
  · exact clash.not_nodup distinct

end Routine

end Reckon
