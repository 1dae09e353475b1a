/-
  The number that a text starts with.

  A text of digits and points writes a numeral if it has at most one point, and a digit
  (`isSome_readNumeral_iff`).  What stands in front of the second point (`beforeSecondPoint`) is
  the longest prefix with at most one, so the search for the longest numeral passes over all
  longer prefixes.  It stops there if there is a digit, and else nowhere, since a shorter prefix
  has no digit either (`valueOf_leadingNumber`).
-/
import Reckon.Proofs.Decimal.ReadBack
import Reckon.Proofs.Decimal.Sign

namespace Reckon.Decimal

variable {text front back ds ps : List Char}

/-! ### Digits and points -/

def DigitsAndPoints (text : List Char) : Prop := ∀ c ∈ text, isNumberChar c = true

instance : Decidable (DigitsAndPoints text) :=
  decidable_of_iff (text.all isNumberChar = true) List.all_eq_true

inductive ByPoints : List Char → Prop where
  | whole {ds : List Char} (digits : ∀ c ∈ ds, c.isDigit = true) : ByPoints ds
  | point {ds ps : List Char} (digits : ∀ c ∈ ds, c.isDigit = true)
    (places : ∀ c ∈ ps, c.isDigit = true) : ByPoints (ds ++ '.' :: ps)
  | points {ds ps : List Char} (digits : ∀ c ∈ ds, c.isDigit = true)
    (places : ∀ c ∈ ps, c.isDigit = true) (back : List Char) :
    ByPoints (ds ++ '.' :: (ps ++ '.' :: back))

/-- Digits come first, and a point ends them unless the text does. -/
theorem DigitsAndPoints.split (chars : DigitsAndPoints text) :
    ∃ ds, (∀ c ∈ ds, c.isDigit = true) ∧
      (text = ds ∨ ∃ rest, text = ds ++ '.' :: rest ∧ DigitsAndPoints rest) := by
  induction text with
  | nil => exact ⟨[], nofun, Or.inl rfl⟩
  | cons c text ih =>
    obtain ⟨number, others⟩ := List.forall_mem_cons.1 chars
    rcases digit_or_point number with digit | rfl
    · obtain ⟨ds, digits, rfl | ⟨rest, rfl, behind⟩⟩ := ih others
      · exact ⟨c :: text, List.forall_mem_cons.2 ⟨digit, digits⟩, Or.inl rfl⟩
      · exact ⟨c :: ds, List.forall_mem_cons.2 ⟨digit, digits⟩, Or.inr ⟨rest, rfl, behind⟩⟩
    · exact ⟨[], nofun, Or.inr ⟨text, rfl, others⟩⟩

theorem DigitsAndPoints.byPoints (chars : DigitsAndPoints text) : ByPoints text := by
  obtain ⟨ds, digits, rfl | ⟨rest, rfl, others⟩⟩ := chars.split
  · exact .whole digits
  · obtain ⟨ps, places, rfl | ⟨back, rfl, -⟩⟩ := others.split
    · exact .point digits places
    · exact .points digits places back

theorem count_point_digits (digits : ∀ c ∈ ds, c.isDigit = true) : ds.count '.' = 0 := by
  apply List.count_eq_zero.2
  intro member
  exact absurd (digits '.' member) (by decide)

theorem count_point_append (digits : ∀ c ∈ ds, c.isDigit = true) (rest : List Char) :
    (ds ++ '.' :: rest).count '.' = rest.count '.' + 1 := by
  rw [List.count_append, count_point_digits digits, List.count_cons_self, Nat.zero_add]

/-! ### Numerals -/

theorem DigitsAndPoints.readNumeral_eq (chars : DigitsAndPoints text) :
    readNumeral text = readDigits false text := by
  cases text with
  | nil => rfl
  | cons c text => exact readNumeral_number (chars c List.mem_cons_self)

/-- A second point is neither a digit nor the beginning of an exponent. -/
theorem readDigits_points (digits : ∀ c ∈ ds, c.isDigit = true)
    (places : ∀ c ∈ ps, c.isDigit = true) (back : List Char) :
    readDigits false (ds ++ '.' :: (ps ++ '.' :: back)) = none := by
  have ends : ∀ (rest : List Char), ∀ c ∈ ('.' :: rest).head?, c.isDigit = false := by
    intro rest c first
    cases first
    rfl
  simp [readDigits, takeWhile_run digits (ends _), dropWhile_run digits (ends _),
    takeWhile_run places (ends _), dropWhile_run places (ends _), readExponent]

theorem exists_digit_iff (digits : ∀ c ∈ ds, c.isDigit = true) :
    (∃ c ∈ ds, c.isDigit = true) ↔ ds ≠ [] := by
  constructor
  · rintro ⟨c, member, -⟩
    exact List.ne_nil_of_mem member
  · intro nonempty
    obtain ⟨c, member⟩ := List.exists_mem_of_ne_nil ds nonempty
    exact ⟨c, member, digits c member⟩

/-- The numerals among the texts of digits and points. -/
theorem isSome_readNumeral_iff (chars : DigitsAndPoints text) :
    (readNumeral text).isSome = true ↔
      text.count '.' ≤ 1 ∧ ∃ c ∈ text, c.isDigit = true := by
  rw [chars.readNumeral_eq]
  cases chars.byPoints with
  | whole digits =>
    rw [readDigits_whole digits, count_point_digits digits, exists_digit_iff digits]
    simp
  | @point ds ps digits places =>
    have either : (∃ c ∈ ds ++ '.' :: ps, c.isDigit = true) ↔ ds ≠ [] ∨ ps ≠ [] := by
      rw [← exists_digit_iff digits, ← exists_digit_iff places]
      simp [or_and_right, exists_or]
    rw [readDigits_point digits places, count_point_append digits, count_point_digits places,
      either]
    by_cases none : ds = [] ∧ ps = []
    · simp [none]
    · simpa [none] using not_and_or.1 none
  | points digits places back =>
    rw [readDigits_points digits places, count_point_append digits, count_point_append places]
    simp

/-! ### The search for the longest numeral -/

/-- What stands in front of the second point of a text; all of it if there is none. -/
def beforeSecondPoint (text : List Char) : List Char :=
  let whole := text.takeWhile (· != '.')
  match text.dropWhile (· != '.') with
  | [] => whole
  | point :: rest => whole ++ point :: rest.takeWhile (· != '.')

inductive CutAtSecond : List Char → List Char → Prop where
  | all {text : List Char} (few : text.count '.' ≤ 1) : CutAtSecond text text
  | second {front : List Char} (one : front.count '.' = 1) (back : List Char) :
    CutAtSecond (front ++ '.' :: back) front

/-- A text ends before its first point, or at it. -/
theorem exists_first_point (text : List Char) :
    (text.dropWhile (· != '.') = [] ∧ text.takeWhile (· != '.') = text ∧ text.count '.' = 0) ∨
      ∃ rest, text.dropWhile (· != '.') = '.' :: rest ∧
        text = text.takeWhile (· != '.') ++ '.' :: rest ∧
          (text.takeWhile (· != '.')).count '.' = 0 := by
  induction text with
  | nil => exact Or.inl ⟨rfl, rfl, rfl⟩
  | cons c text ih =>
    by_cases point : c = '.'
    · exact Or.inr ⟨text, by simp [point]⟩
    · simpa [point] using ih

theorem cut_beforeSecondPoint (text : List Char) : CutAtSecond text (beforeSecondPoint text) := by
  rcases exists_first_point text with ⟨dropped, taken, none⟩ | ⟨rest, dropped, eq, none⟩
  · have front : beforeSecondPoint text = text := by
      simp [beforeSecondPoint, dropped, taken]
    rw [front]
    exact .all (by omega)
  · have front : beforeSecondPoint text =
        text.takeWhile (· != '.') ++ '.' :: rest.takeWhile (· != '.') := by
      simp [beforeSecondPoint, dropped]
    generalize text.takeWhile (· != '.') = whole at eq none front
    rw [front, eq]
    -- The second point is the first one behind the first.
    rcases exists_first_point rest with ⟨-, taken, few⟩ | ⟨back, -, eq, few⟩
    · rw [taken]
      apply CutAtSecond.all
      simp [none, few]
    · generalize rest.takeWhile (· != '.') = places at eq few
      have second : CutAtSecond ((whole ++ '.' :: places) ++ '.' :: back)
          (whole ++ '.' :: places) := .second (by simp [none, few]) back
      rw [eq]
      simpa using second

theorem CutAtSecond.isPrefix (cut : CutAtSecond text front) : front <+: text := by
  cases cut with
  | all => exact List.prefix_refl _
  | second one back => exact List.prefix_append _ _

theorem CutAtSecond.few (cut : CutAtSecond text front) : front.count '.' ≤ 1 := by
  cases cut with
  | all few => exact few
  | second one => exact Nat.le_of_eq one

/-- A longer prefix than the one in front of the second point has two points. -/
theorem CutAtSecond.two_le_count {n : Nat} (cut : CutAtSecond text front)
    (longer : front.length < n) (le : n ≤ text.length) : 2 ≤ (text.take n).count '.' := by
  cases cut with
  | all => omega
  | second one back =>
    obtain ⟨k, rfl⟩ := Nat.exists_eq_add_of_lt longer
    rw [Nat.add_assoc, List.take_length_add_append, List.take_succ_cons, List.count_append, one,
      List.count_cons_self]
    omega

theorem longestNumeral_skip {k n : Nat} (le : k ≤ n)
    (refused : ∀ j, k < j → j ≤ n → readNumeral (text.take j) = none) :
    longestNumeral text n = longestNumeral text k := by
  induction n with
  | zero => rw [Nat.le_zero.1 le]
  | succ n ih =>
    rcases Nat.eq_or_lt_of_le le with rfl | below
    · rfl
    · rw [longestNumeral, refused (n + 1) below (Nat.le_refl _)]
      apply ih (Nat.le_of_lt_succ below)
      intro j above inside
      exact refused j above (Nat.le_succ_of_le inside)

/-- Behind the front nothing matters that is cut off there. -/
theorem longestNumeral_append {n : Nat} (back : List Char) (le : n ≤ front.length) :
    longestNumeral (front ++ back) n = longestNumeral front n := by
  induction n with
  | zero => rfl
  | succ n ih =>
    rw [longestNumeral, longestNumeral, List.take_append_of_le_length le, ih (Nat.le_of_succ_le le)]

theorem DigitsAndPoints.take (chars : DigitsAndPoints text) (n : Nat) :
    DigitsAndPoints (text.take n) :=
  fun c member => chars c (List.mem_of_mem_take member)

theorem DigitsAndPoints.readNumeral_eq_none (chars : DigitsAndPoints text)
    (unfit : 2 ≤ text.count '.' ∨ ∀ c ∈ text, c.isDigit = false) : readNumeral text = none := by
  apply Option.not_isSome_iff_eq_none.1
  rw [isSome_readNumeral_iff chars]
  rintro ⟨few, c, member, digit⟩
  rcases unfit with points | noDigit
  · omega
  · rw [noDigit c member] at digit
    cases digit

/-- Only what stands in front of the second point counts. -/
theorem longestNumeral_cut (chars : DigitsAndPoints text) (cut : CutAtSecond text front) :
    longestNumeral text text.length = longestNumeral front front.length := by
  have skip := longestNumeral_skip cut.isPrefix.length_le fun n longer le =>
    (chars.take n).readNumeral_eq_none (Or.inl (cut.two_le_count longer le))
  obtain ⟨back, eq⟩ := cut.isPrefix
  rw [skip, ← eq, longestNumeral_append back (Nat.le_refl _)]

/-- Without a digit there is no numeral. -/
theorem longestNumeral_eq_zero (chars : DigitsAndPoints text)
    (noDigit : ∀ c ∈ text, c.isDigit = false) : longestNumeral text text.length = 0 := by
  refine longestNumeral_skip (Nat.zero_le _) fun n _ _ => ?_
  apply (chars.take n).readNumeral_eq_none
  exact Or.inr fun c member => noDigit c (List.mem_of_mem_take member)

/-! ### Values -/

theorem notNegative_nearestDouble (digits : Nat) (e : Int) :
    NotNegative (nearestDouble false digits e).toFloat := by
  unfold nearestDouble
  simp only
  split
  · exact notNegative_floatOfCode (Nat.min_le_right _ _)
  split
  · exact notNegative_floatOfCode (Nat.le_refl _)
  · exact notNegative_floatOfCode (Nat.min_le_right _ _)

/-- A numeral of digits and points has no sign. -/
theorem notNegative_readNumeral {d : Double} (chars : DigitsAndPoints text)
    (reads : readNumeral text = some d) : NotNegative d.toFloat := by
  have written : ∃ digits e, d = nearestDouble false digits e := by
    rw [chars.readNumeral_eq] at reads
    cases chars.byPoints with
    | whole digits =>
      rw [readDigits_whole digits, Option.ite_none_left_eq_some] at reads
      exact ⟨_, _, (Option.some.inj reads.2).symm⟩
    | point digits places =>
      rw [readDigits_point digits places, Option.ite_none_left_eq_some] at reads
      exact ⟨_, _, (Option.some.inj reads.2).symm⟩
    | points digits places back =>
      rw [readDigits_points digits places] at reads
      cases reads
  obtain ⟨digits, e, rfl⟩ := written
  exact notNegative_nearestDouble digits e

/-- The number that a text of digits and points stands for: the double that is written in front
    of the second point, and zero if no digit is there. -/
structure ValueOf (text : List Char) (x : Float) : Prop where
  read : (∃ c ∈ beforeSecondPoint text, c.isDigit = true) →
    ∃ d, readNumeral (beforeSecondPoint text) = some d ∧ x = d.toFloat
  zero : (∀ c ∈ beforeSecondPoint text, c.isDigit = false) → x = 0
  notNegative : NotNegative x

theorem valueOf_leadingNumber {text : String} (chars : DigitsAndPoints text.toList) :
    ValueOf text.toList (leadingNumber text) := by
  have cut := cut_beforeSecondPoint text.toList
  -- Only the cut counts from here on, and not how it is found.
  generalize fronts : beforeSecondPoint text.toList = front at cut
  have inFront : DigitsAndPoints front := fun c member => chars c (cut.isPrefix.subset member)
  have value : leadingNumber text = longestNumeral front front.length :=
    longestNumeral_cut chars cut
  have reads : (∃ c ∈ front, c.isDigit = true) →
      ∃ d, readNumeral front = some d ∧ leadingNumber text = d.toFloat := by
    rintro ⟨c, member, digit⟩
    have numeral := (isSome_readNumeral_iff inFront).2 ⟨cut.few, c, member, digit⟩
    obtain ⟨d, reads⟩ := Option.isSome_iff_exists.1 numeral
    rw [value]
    exact ⟨d, reads, longestNumeral_of_readNumeral (List.ne_nil_of_mem member) reads⟩
  have zero : (∀ c ∈ front, c.isDigit = false) → leadingNumber text = 0 := by
    intro noDigit
    rw [value, longestNumeral_eq_zero inFront noDigit]
  constructor
  · rw [fronts]
    exact reads
  · rw [fronts]
    exact zero
  · by_cases digit : ∃ c ∈ front, c.isDigit = true
    · obtain ⟨d, numeral, eq⟩ := reads digit
      rw [eq]
      exact notNegative_readNumeral inFront numeral
    · rw [zero (by simpa using digit)]
      exact notNegative_zero

/-- Digits and points behind a second point never matter. -/
theorem leadingNumber_second (chars : DigitsAndPoints (front ++ '.' :: back))
    (one : front.count '.' = 1) :
    leadingNumber (String.ofList (front ++ '.' :: back)) = leadingNumber (String.ofList front) := by
  rw [leadingNumber, leadingNumber, String.toList_ofList, String.toList_ofList]
  exact longestNumeral_cut chars (.second one back)

end Reckon.Decimal
