/-
  Written and read again.

  Without an exponent a double is written as digits with at most one point among them
  (`Plain`), and the number that such a text writes is the one that is near.  So a literal
  that was written reads as the double that it was written for (`leadingNumber_write`).
-/
import Reckon.Proofs.Decimal.Neighbourhood
import Reckon.Proofs.Text.Trim
import Reckon.Decimal.Numeral
import Reckon.Expr.Print
import Reckon.Token.Scan

namespace Reckon.Decimal

/-! ### Runs of digits -/

variable {text ds ps : List Char} {digits n : Nat} {e : Int}

theorem isNumberChar_digit {c : Char} (digit : c.isDigit = true) : isNumberChar c = true := by
  rw [isNumberChar, digit, Bool.true_or]

theorem digit_or_point {c : Char} (number : isNumberChar c = true) :
    c.isDigit = true ∨ c = '.' := by
  simpa [isNumberChar] using number

theorem isDigit_digitText (n : Nat) : ∀ c ∈ digitText n, c.isDigit = true :=
  fun _ member => Nat.isDigit_of_mem_toDigits (by decide) (by decide) member

theorem isDigit_zeros (n : Nat) : ∀ c ∈ zeros n, c.isDigit = true := by
  intro c member
  rw [List.eq_of_mem_replicate member]
  rfl

theorem isDigit_append (left : ∀ c ∈ ds, c.isDigit = true) (right : ∀ c ∈ ps, c.isDigit = true) :
    ∀ c ∈ ds ++ ps, c.isDigit = true := by
  intro c member
  rcases List.mem_append.1 member with before | after
  · exact left c before
  · exact right c after

theorem digitText_ne_nil (n : Nat) : digitText n ≠ [] := Nat.toDigits_ne_nil

theorem digitsValue_digitText (n : Nat) : digitsValue (digitText n) = n :=
  Nat.ofDigitChars_ten_toDigits

theorem digitsValue_append_zeros (ds : List Char) (n : Nat) :
    digitsValue (ds ++ zeros n) = digitsValue ds * 10 ^ n := by
  have append := Nat.ofDigitChars_append (b := 10) (l := ds) (m := zeros n) 0
  rw [zeros, Nat.ofDigitChars_replicate_zero] at append
  exact append.trans (Nat.mul_comm _ _)

theorem digitsValue_zeros_append (n : Nat) (ds : List Char) :
    digitsValue (zeros n ++ ds) = digitsValue ds := by
  have append := Nat.ofDigitChars_append (b := 10) (l := zeros n) (m := ds) 0
  rw [zeros, Nat.ofDigitChars_replicate_zero, Nat.mul_zero] at append
  exact append

/-! ### Plain numerals -/

/-- Digits with at most one point among them, and the number that they write. -/
inductive Plain : List Char → Nat → Int → Prop where
  | whole {ds : List Char} (nonempty : ds ≠ []) (digits : ∀ c ∈ ds, c.isDigit = true) :
    Plain ds (digitsValue ds) 0
  | point {ds ps : List Char} (nonempty : ds ≠ []) (digits : ∀ c ∈ ds, c.isDigit = true)
    (places : ∀ c ∈ ps, c.isDigit = true) :
    Plain (ds ++ '.' :: ps) (digitsValue (ds ++ ps)) (-(ps.length : Int))

theorem Plain.head (plain : Plain text digits e) :
    ∃ c rest, text = c :: rest ∧ c.isDigit = true := by
  cases plain with
  | whole nonempty digits =>
    cases text with
    | nil => exact absurd rfl nonempty
    | cons c rest => exact ⟨c, rest, rfl, digits c List.mem_cons_self⟩
  | @point ds ps nonempty digits places =>
    cases ds with
    | nil => exact absurd rfl nonempty
    | cons c rest => exact ⟨c, rest ++ '.' :: ps, rfl, digits c List.mem_cons_self⟩

theorem Plain.chars (plain : Plain text digits e) : ∀ c ∈ text, isNumberChar c = true := by
  cases plain with
  | whole nonempty digits => exact fun c member => isNumberChar_digit (digits c member)
  | point nonempty digits places =>
    intro c member
    rcases List.mem_append.1 member with before | after
    · exact isNumberChar_digit (digits c before)
    · rcases List.mem_cons.1 after with rfl | behind
      · rfl
      · exact isNumberChar_digit (places c behind)

/-- Digits write a numeral if there is one. -/
theorem readDigits_whole (digits : ∀ c ∈ ds, c.isDigit = true) :
    readDigits false ds =
      if ds = [] then none else some (nearestDouble false (digitsValue ds) 0) := by
  have all := takeWhile_whole digits
  simp [readDigits, all.1, all.2, readExponent]

/-- Digits around a point write a numeral if there is one on either side. -/
theorem readDigits_point (digits : ∀ c ∈ ds, c.isDigit = true)
    (places : ∀ c ∈ ps, c.isDigit = true) :
    readDigits false (ds ++ '.' :: ps) =
      if ds = [] ∧ ps = [] then none
      else some (nearestDouble false (digitsValue (ds ++ ps)) (-(ps.length : Int))) := by
  have ends : ∀ c ∈ ('.' :: ps).head?, c.isDigit = false := by
    intro c first
    cases first
    rfl
  have after := takeWhile_whole places
  simp [readDigits, takeWhile_run digits ends, dropWhile_run digits ends, after.1, after.2,
    readExponent]

theorem Plain.readDigits (plain : Plain text digits e) :
    readDigits false text = some (nearestDouble false digits e) := by
  cases plain with
  | whole nonempty digits => rw [readDigits_whole digits, if_neg nonempty]
  | point nonempty digits places =>
    rw [readDigits_point digits places, if_neg fun empty => nonempty empty.1]

theorem toLower_number {c : Char} (number : isNumberChar c = true) : c.toLower = c := by
  apply Char.toLower_eq_of_not_isUpper
  rcases digit_or_point number with digit | rfl
  · simp only [Char.isDigit, Char.isUpper, Bool.and_eq_true, decide_eq_true_eq,
      UInt32.le_iff_toNat_le] at digit ⊢
    intro upper
    exact absurd (Nat.le_trans upper.1 digit.2) (by decide)
  · decide

/-- No word for a double that is no number begins with a digit or a point. -/
theorem readWord_number {c : Char} {rest : List Char} (number : isNumberChar c = true) :
    readWord false (c :: rest) = none := by
  have other : ∀ (word : String) (first : Char), word.toList.head? = some first →
      isNumberChar first = false → String.ofList ((c :: rest).map Char.toLower) ≠ word := by
    rintro word first isFirst letter rfl
    rw [String.toList_ofList, List.map_cons, List.head?_cons, toLower_number number] at isFirst
    cases isFirst
    rw [number] at letter
    cases letter
  unfold readWord
  simp only
  rw [if_neg, if_neg]
  · exact other "nan" 'n' rfl rfl
  · simp only [Bool.or_eq_true, decide_eq_true_eq, not_or]
    exact ⟨other "inf" 'i' rfl rfl, other "infinity" 'i' rfl rfl⟩

/-- A numeral that begins with a digit or a point has no sign and is no word. -/
theorem readNumeral_number {c : Char} {rest : List Char} (number : isNumberChar c = true) :
    readNumeral (c :: rest) = readDigits false (c :: rest) := by
  have noMinus : c ≠ '-' := by
    rintro rfl
    cases number
  have noPlus : c ≠ '+' := by
    rintro rfl
    cases number
  have body : readNumeral (c :: rest) = (readWord false (c :: rest)).orElse fun _ =>
      readDigits false (c :: rest) := by
    simp [readNumeral, noMinus, noPlus]
  rw [body, readWord_number number]
  rfl

theorem Plain.readNumeral (plain : Plain text digits e) :
    readNumeral text = some (nearestDouble false digits e) := by
  obtain ⟨c, rest, rfl, digit⟩ := plain.head
  rw [readNumeral_number (isNumberChar_digit digit), plain.readDigits]

/-! ### Placing the digits -/

/-- Digits placed without an exponent write the same number. -/
theorem plain_positional (s : Scientific) :
    ∃ digits e, Plain (positionalText false s) digits e ∧ ∀ nb : Neighbourhood,
      nb.holds (.ofExponent e) digits = nb.holds (.ofExponent s.exponent) s.digits := by
  have isDigits := isDigit_digitText s.digits
  have value := digitsValue_digitText s.digits
  by_cases whole : 0 ≤ s.exponent
  · have text : positionalText false s = digitText s.digits ++ zeros s.exponent.toNat := by
      simp [positionalText, whole]
    have plain := Plain.whole (by simp [digitText_ne_nil])
      (isDigit_append isDigits (isDigit_zeros s.exponent.toNat))
    rw [digitsValue_append_zeros, value] at plain
    refine ⟨_, _, text ▸ plain, fun nb => ?_⟩
    rw [Neighbourhood.holds_shift]
    congr 2
    omega
  · generalize places : (-s.exponent).toNat = k
    have exponent : s.exponent = -(k : Int) := by omega
    by_cases inside : k < (digitText s.digits).length
    · generalize cut : (digitText s.digits).length - k = n
      have text : positionalText false s =
          (digitText s.digits).take n ++ '.' :: (digitText s.digits).drop n := by
        simp [positionalText, whole, places, inside, cut]
      have nonempty : (digitText s.digits).take n ≠ [] := by
        simp only [ne_eq, List.take_eq_nil_iff, digitText_ne_nil, or_false]
        omega
      have before : ∀ c ∈ (digitText s.digits).take n, c.isDigit = true :=
        fun c member => isDigits c (List.mem_of_mem_take member)
      have after : ∀ c ∈ (digitText s.digits).drop n, c.isDigit = true :=
        fun c member => isDigits c (List.mem_of_mem_drop member)
      have plain := Plain.point nonempty before after
      rw [List.take_append_drop, value, List.length_drop,
        show (digitText s.digits).length - n = k by omega, ← exponent] at plain
      exact ⟨_, _, text ▸ plain, fun nb => rfl⟩
    · generalize pad : k - (digitText s.digits).length = n
      have text : positionalText false s = zeros 1 ++ '.' :: (zeros n ++ digitText s.digits) := by
        simp [positionalText, whole, places, inside, pad, zeros]
      have plain := Plain.point (by simp [zeros]) (isDigit_zeros 1)
        (isDigit_append (isDigit_zeros n) isDigits)
      have length : (zeros n ++ digitText s.digits).length = k := by
        rw [List.length_append, zeros, List.length_replicate]
        omega
      rw [digitsValue_zeros_append, digitsValue_zeros_append, value, length, ← exponent] at plain
      exact ⟨_, _, text ▸ plain, fun nb => rfl⟩

/-! ### Literals -/

variable {m : Magnitude} {x : Float}

theorem layout_literal (m : Magnitude) :
    literalStyle.layout m = positionalText false m.shortest := rfl

theorem toFloat_nearestDouble (normal : m.Normal) (pos : 0 < m.significand)
    (holds : m.neighbourhood.holds (.ofExponent e) digits = true) :
    (nearestDouble false digits e).toFloat = floatOfCode false m.code := by
  obtain ⟨ne, low, high⟩ := Magnitude.decade_range normal pos holds
  have near := Magnitude.near_of_holds holds
  have code := Magnitude.code_nearest normal (Nat.pow_pos (by decide)) near
  have lt := normal.code_lt
  unfold nearestDouble
  simp only
  rw [if_neg, if_neg (by omega)]
  · change floatOfCode false (min (Magnitude.code _) infinityCode) = _
    rw [Nat.pow_eq, Nat.pow_eq, code, Nat.min_eq_left (Nat.le_of_lt lt)]
  · simp only [Bool.or_eq_true, decide_eq_true_eq, not_or]
    exact ⟨ne, by omega⟩

theorem toFloat_zero (e : Int) : (nearestDouble false 0 e).toFloat = floatOfCode false 0 := rfl

theorem layout_zero (zero : m.significand = 0) : literalStyle.layout m = ['0'] := by
  have shortest : m.shortest = ⟨0, 0⟩ := by
    unfold Magnitude.shortest
    exact if_pos zero
  rw [layout_literal, shortest]
  rfl

/-- A literal's text is a plain numeral that writes the literal. -/
theorem plain_layout (normal : m.Normal) :
    ∃ digits e, Plain (literalStyle.layout m) digits e ∧
      (nearestDouble false digits e).toFloat = floatOfCode false m.code := by
  by_cases zero : m.significand = 0
  · have code : m.code = 0 := by
      have scale : m.scale = 0 := by
        rcases normal.full with full | scale
        · rw [zero] at full
          exact absurd full (by decide)
        · exact scale
      rw [Magnitude.code, zero, scale, Nat.zero_mul]
    have plain : Plain ['0'] 0 0 := .whole (by simp) (isDigit_zeros 1)
    rw [layout_zero zero, code]
    exact ⟨0, 0, plain, toFloat_zero 0⟩
  · obtain ⟨digits, e, plain, same⟩ := plain_positional m.shortest
    have pos := Nat.pos_of_ne_zero zero
    refine ⟨digits, e, plain, toFloat_nearestDouble normal pos ?_⟩
    rw [same, Magnitude.holds_shortest m pos]

theorem toList_write (finite : Double.ofFloat x = .finite false m) :
    (literalStyle.write x).toList = literalStyle.layout m := by
  simp [Style.write, Decimal.write, finite]

theorem plain_write (finite : Double.ofFloat x = .finite false m) :
    ∃ digits e, Plain (literalStyle.write x).toList digits e := by
  obtain ⟨digits, e, plain, -⟩ := plain_layout (normal_of_finite finite)
  exact ⟨digits, e, (toList_write finite).symm ▸ plain⟩

theorem longestNumeral_of_readNumeral {d : Double} (ne : text ≠ [])
    (reads : readNumeral text = some d) : longestNumeral text text.length = d.toFloat := by
  cases text with
  | nil => exact absurd rfl ne
  | cons c rest =>
    have all : (c :: rest).take (rest.length + 1) = c :: rest :=
      List.take_of_length_le (Nat.le_refl _)
    rw [List.length_cons, longestNumeral, all, reads]

/-- A literal that was written reads as the double that it was written for. -/
theorem leadingNumber_write (finite : Double.ofFloat x = .finite false m) :
    leadingNumber (literalStyle.write x) = x := by
  obtain ⟨digits, e, plain, value⟩ := plain_layout (normal_of_finite finite)
  obtain ⟨c, rest, text, -⟩ := plain.head
  rw [leadingNumber, toList_write finite,
    longestNumeral_of_readNumeral (by simp [text]) plain.readNumeral, value,
    floatOfCode_of_finite finite]

end Reckon.Decimal
