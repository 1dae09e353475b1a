/-
  The shortest decimal lies near.

  A decimal number is near a magnitude when the neighbourhood holds it as a point of the grid
  of its exponent.  How the number is written makes no difference: zeros may be moved between
  the digits and the power of ten (`holds_shift`).  The digits that are chosen are near, those
  of the exact value included (`holds_shortest`), and what is near rounds to the magnitude
  (`near_of_holds`) and is in the range of the doubles.
-/
import Reckon.Proofs.Decimal.Rounding

namespace Reckon.Decimal

/-! ### Points of grids -/

namespace Neighbourhood

variable {nb : Neighbourhood} {g g' : Grid} {c c' : Nat} {e : Int}

theorem le_iff_of_stretched {a b a' b' t t' : Nat} (pos : 0 < t) (pos' : 0 < t')
    (left : a * t' = a' * t) (right : b * t' = b' * t) : a ≤ b ↔ a' ≤ b' :=
  calc
    a ≤ b ↔ a * t' ≤ b * t' := (Nat.mul_le_mul_right_iff pos').symm
    _ ↔ a' * t ≤ b' * t := by rw [left, right]
    _ ↔ a' ≤ b' := Nat.mul_le_mul_right_iff pos

/-- Two points of grids that are the same number are both near or both not. -/
theorem holds_congr (pos : 0 < g.stretch) (pos' : 0 < g'.stretch)
    (same : c * g.step * g'.stretch = c' * g'.step * g.stretch) :
    nb.holds g c = nb.holds g' c' := by
  have scale : ∀ n, n * g.stretch * g'.stretch = n * g'.stretch * g.stretch := fun n =>
    Nat.mul_right_comm n _ _
  have low := le_iff_of_stretched pos pos' (scale nb.low) same
  have high := le_iff_of_stretched pos pos' same (scale nb.high)
  have above := le_iff_of_stretched pos pos' same (scale nb.low)
  have below := le_iff_of_stretched pos pos' (scale nb.high) same
  simp only [holds, low, high, ← Nat.not_le, above, below]

theorem stretch_pos (e : Int) : 0 < (Grid.ofExponent e).stretch :=
  Nat.pow_pos (by decide)

theorem holds_succ (nb : Neighbourhood) (e : Int) (c : Nat) :
    nb.holds (.ofExponent e) (c * 10) = nb.holds (.ofExponent (e + 1)) c := by
  apply holds_congr (stretch_pos e) (stretch_pos (e + 1))
  by_cases nonneg : 0 ≤ e
  · have up : (e + 1).toNat = e.toNat + 1 := by omega
    have none : (-e).toNat = 0 := by omega
    have none' : (-(e + 1)).toNat = 0 := by omega
    simp only [Grid.ofExponent, up, none, none', Nat.pow_eq, Nat.pow_succ, Nat.pow_zero,
      Nat.mul_one]
    rw [Nat.mul_assoc c, ← Nat.mul_assoc quartersInOne, Nat.mul_comm 10]
  · have down : (-e).toNat = (-(e + 1)).toNat + 1 := by omega
    have none : e.toNat = 0 := by omega
    have none' : (e + 1).toNat = 0 := by omega
    simp only [Grid.ofExponent, down, none, none', Nat.pow_eq, Nat.pow_succ, Nat.pow_zero,
      Nat.mul_one]
    rw [Nat.mul_right_comm c, Nat.mul_assoc (c * quartersInOne), Nat.mul_comm 10]

/-- Zeros at the end of the digits count as powers of ten. -/
theorem holds_shift (nb : Neighbourhood) (e : Int) (n c : Nat) :
    nb.holds (.ofExponent e) (c * 10 ^ n) = nb.holds (.ofExponent (e + n)) c := by
  induction n generalizing e with
  | zero => simp
  | succ n ih =>
    rw [Nat.pow_succ, ← Nat.mul_assoc, holds_succ, ih]
    congr 2
    omega

theorem holds_strip (s : Scientific) (near : nb.holds (.ofExponent s.exponent) s.digits = true) :
    nb.holds (.ofExponent s.strip.exponent) s.strip.digits = true := by
  fun_induction Scientific.strip s with
  | case1 s zero ih =>
    apply ih
    have digits : s.digits / 10 * 10 = s.digits := by omega
    rw [← holds_succ, digits]
    exact near
  | case2 s => exact near

theorem holds_of_pick (picked : nb.pick g = some c) : nb.holds g c = true := by
  unfold pick at picked
  simp only at picked
  split at picked
  · cases picked
  · cases picked
    assumption
  · cases picked
    assumption
  · cases picked
    split <;> assumption

end Neighbourhood

/-! ### The digits of a magnitude -/

namespace Magnitude

variable {m : Magnitude}

theorem below_le (m : Magnitude) (pos : 0 < m.significand) :
    m.neighbourhood.low < m.neighbourhood.value ∧
      m.neighbourhood.value < m.neighbourhood.high := by
  have step : 0 < 2 ^ m.scale := Nat.two_pow_pos m.scale
  have units : 0 < m.significand * 2 ^ m.scale := Nat.mul_pos pos step
  unfold neighbourhood Magnitude.units
  simp only [Nat.pow_eq]
  split <;> omega

theorem value_neighbourhood (m : Magnitude) : m.neighbourhood.value = 4 * m.units := rfl

/-- A power of ten clears the powers of two below the point. -/
theorem units_decimal (units n : Nat) :
    units * Nat.pow 5 n * (4 * Nat.pow 2 n * Nat.pow 10 0) = 4 * units * Nat.pow 10 n := by
  have tens : Nat.pow 10 n = Nat.pow 5 n * Nat.pow 2 n := Nat.mul_pow 5 2 n
  rw [tens, show Nat.pow 10 0 = 1 from rfl]
  ac_rfl

theorem exact_value (m : Magnitude) :
    m.exact.digits * (Grid.ofExponent m.exact.exponent).step =
      m.neighbourhood.value * (Grid.ofExponent m.exact.exponent).stretch := by
  -- With a name for the number of places nothing tries to compute the powers.
  obtain ⟨n, isExact, isOne⟩ : ∃ n : Nat, m.exact = ⟨m.units * Nat.pow 5 n, -n⟩ ∧
      unitsInOne = Nat.pow 2 n := ⟨_, rfl, by decide +kernel⟩
  have none : (-(n : Int)).toNat = 0 := by omega
  have places : (- -(n : Int)).toNat = n := by omega
  simp only [isExact, Grid.ofExponent, quartersInOne, isOne, none, places, value_neighbourhood]
  exact units_decimal m.units n

theorem holds_exact (m : Magnitude) (pos : 0 < m.significand) :
    m.neighbourhood.holds (.ofExponent m.exact.exponent) m.exact.digits = true := by
  obtain ⟨low, high⟩ := below_le m pos
  have stretch := Neighbourhood.stretch_pos m.exact.exponent
  have below := Nat.mul_lt_mul_of_pos_right low stretch
  have above := Nat.mul_lt_mul_of_pos_right high stretch
  simp only [Neighbourhood.holds, exact_value, below, above, Nat.le_of_lt, decide_true,
    Bool.and_self]
  split <;> rfl

/-- The digits that are written are near. -/
theorem holds_shortest (m : Magnitude) (pos : 0 < m.significand) :
    m.neighbourhood.holds (.ofExponent m.shortest.exponent) m.shortest.digits = true := by
  unfold shortest
  rw [if_neg (Nat.ne_of_gt pos)]
  simp only
  apply Neighbourhood.holds_strip
  generalize found : List.findSome? _ _ = result
  cases result with
  | none => exact holds_exact m pos
  | some s =>
    obtain ⟨more, -, picked⟩ := List.exists_of_findSome?_eq_some found
    obtain ⟨c, isPicked, rfl⟩ := Option.map_eq_some_iff.1 picked
    exact Neighbourhood.holds_of_pick isPicked

/-! ### What is near -/

theorem units_eq (m : Magnitude) : m.units = m.significand * 2 ^ m.scale := rfl

theorem high_neighbourhood (m : Magnitude) :
    m.neighbourhood.high = 4 * m.units + 2 * 2 ^ m.scale := rfl

theorem step_ofExponent (e : Int) :
    (Grid.ofExponent e).step = 4 * unitsInOne * 10 ^ e.toNat := rfl

theorem low_neighbourhood (m : Magnitude) :
    m.neighbourhood.low = 4 * m.units - m.gap * 2 ^ m.scale := by
  unfold neighbourhood gap
  simp only [Nat.pow_eq]
  split <;> simp

/-- What the neighbourhood of a magnitude holds is near it. -/
theorem near_of_holds {e : Int} {c : Nat}
    (holds : m.neighbourhood.holds (.ofExponent e) c = true) :
    m.Near (c * unitsInOne * 10 ^ e.toNat) (10 ^ (-e).toNat) := by
  have low : m.neighbourhood.low * 10 ^ (-e).toNat =
      4 * (m.significand * (10 ^ (-e).toNat * 2 ^ m.scale)) -
        m.gap * (10 ^ (-e).toNat * 2 ^ m.scale) := by
    rw [low_neighbourhood, units_eq, Nat.sub_mul]
    generalize (10 : Nat) ^ (-e).toNat = t
    generalize (2 : Nat) ^ m.scale = p
    congr 1 <;> ac_rfl
  have high : m.neighbourhood.high * 10 ^ (-e).toNat =
      4 * (m.significand * (10 ^ (-e).toNat * 2 ^ m.scale)) +
        2 * (10 ^ (-e).toNat * 2 ^ m.scale) := by
    rw [high_neighbourhood, units_eq, Nat.add_mul]
    generalize (10 : Nat) ^ (-e).toNat = t
    generalize (2 : Nat) ^ m.scale = p
    congr 1 <;> ac_rfl
  have point : c * (Grid.ofExponent e).step = 4 * (c * unitsInOne * 10 ^ e.toNat) := by
    rw [step_ofExponent]
    generalize unitsInOne = u
    generalize (10 : Nat) ^ e.toNat = t
    ac_rfl
  have stretch : (Grid.ofExponent e).stretch = 10 ^ (-e).toNat := rfl
  have closed : m.neighbourhood.closed = (m.significand % 2 == 0) := rfl
  simp only [Neighbourhood.holds, point, stretch, low, high, closed, beq_iff_eq] at holds
  split at holds
  · rename_i even
    simp only [Bool.and_eq_true, decide_eq_true_eq] at holds
    exact ⟨by omega, by omega, fun _ => even, fun _ => even⟩
  · simp only [Bool.and_eq_true, decide_eq_true_eq] at holds
    exact ⟨by omega, by omega, by omega, by omega⟩

/-! ### The range of the doubles -/

theorem exists_two_units_lt : ∃ n, n = 331 ∧ 2 * unitsInOne < 10 ^ n :=
  ⟨_, rfl, by decide +kernel⟩

theorem two_pow_lt_units {n : Nat} (le : n ≤ 2045) : 2 ^ 53 * 2 ^ n < unitsInOne * 10 ^ 310 := by
  obtain ⟨most, isMost, small⟩ : ∃ most, most = 2045 ∧ 2 ^ 53 * 2 ^ most < unitsInOne * 10 ^ 310 :=
    ⟨_, rfl, by decide +kernel⟩
  have atMost : 2 ^ 53 * 2 ^ n ≤ 2 ^ 53 * 2 ^ most :=
    Nat.mul_le_mul_left _ (Nat.pow_le_pow_right (by decide) (by omega))
  exact Nat.lt_of_le_of_lt atMost small

theorem Near.num_pos {num den : Nat} (near : m.Near num den) (pos : 0 < m.significand) :
    den ≤ 2 * num := by
  have place : den * 1 ≤ den * 2 ^ m.scale := Nat.mul_le_mul_left den (Nat.two_pow_pos m.scale)
  have some : 1 * (den * 2 ^ m.scale) ≤ m.significand * (den * 2 ^ m.scale) :=
    Nat.mul_le_mul_right _ pos
  have lower := near.lower_two
  omega

theorem Near.num_lt {num den : Nat} (near : m.Near num den) (normal : m.Normal)
    (denPos : 0 < den) : num < unitsInOne * 10 ^ 310 * den := by
  have fits := normal.fits
  have positive : 0 < den * 2 ^ m.scale := Nat.mul_pos denPos (Nat.two_pow_pos m.scale)
  have most : m.significand * (den * 2 ^ m.scale) ≤ (2 ^ 53 - 1) * (den * 2 ^ m.scale) :=
    Nat.mul_le_mul_right _ (by omega)
  have upper := near.upper
  have lt : num < 2 ^ 53 * (den * 2 ^ m.scale) := by omega
  refine Nat.lt_of_lt_of_le lt ?_
  rw [Nat.mul_left_comm, Nat.mul_comm den]
  exact Nat.mul_le_mul_right den (Nat.le_of_lt (two_pow_lt_units normal.scale))

theorem pow_le_of_length {c : Nat} (pos : 0 < c) :
    10 ^ ((Nat.toDigits 10 c).length - 1) ≤ c := by
  by_cases single : (Nat.toDigits 10 c).length - 1 = 0
  · rw [single]
    exact pos
  · apply Nat.le_of_not_lt
    intro lt
    have le := (Nat.length_toDigits_le_iff (by decide) (by omega)).2 lt
    omega

section Range

variable {e : Int} {c : Nat}

/-- A decimal of at least half a unit has its leading digit within the places of a unit. -/
theorem decade_ge (pos : 0 < c)
    (least : 10 ^ (-e).toNat ≤ 2 * (c * unitsInOne * 10 ^ e.toNat)) :
    -330 ≤ e + ((Nat.toDigits 10 c).length : Int) := by
  apply Int.not_lt.1
  intro tiny
  obtain ⟨n, isRange, units⟩ := exists_two_units_lt
  have digits : 0 < (Nat.toDigits 10 c).length := Nat.length_toDigits_pos
  have whole : e.toNat = 0 := by omega
  have places : (Nat.toDigits 10 c).length + n ≤ (-e).toNat := by omega
  have bound : c < 10 ^ (Nat.toDigits 10 c).length :=
    (Nat.length_toDigits_le_iff (by decide) digits).1 (Nat.le_refl _)
  rw [whole, Nat.pow_zero, Nat.mul_one] at least
  have less : c * (2 * unitsInOne) < c * (2 * unitsInOne) :=
    calc
      c * (2 * unitsInOne) < c * 10 ^ n := Nat.mul_lt_mul_of_pos_left units pos
      _ ≤ 10 ^ (Nat.toDigits 10 c).length * 10 ^ n :=
        Nat.mul_le_mul_right _ (Nat.le_of_lt bound)
      _ = 10 ^ ((Nat.toDigits 10 c).length + n) := (Nat.pow_add ..).symm
      _ ≤ 10 ^ (-e).toNat := Nat.pow_le_pow_right (by decide) places
      _ ≤ 2 * (c * unitsInOne) := least
      _ = c * (2 * unitsInOne) := Nat.mul_left_comm ..
  exact Nat.lt_irrefl _ less

/-- A decimal below `10 ^ 310` has its leading digit below that place. -/
theorem decade_le (pos : 0 < c)
    (most : c * unitsInOne * 10 ^ e.toNat < unitsInOne * 10 ^ 310 * 10 ^ (-e).toNat) :
    e + ((Nat.toDigits 10 c).length : Int) ≤ 310 := by
  apply Int.not_lt.1
  intro huge
  have places : 310 + (-e).toNat ≤ (Nat.toDigits 10 c).length - 1 + e.toNat := by omega
  have less : unitsInOne * 10 ^ (310 + (-e).toNat) < unitsInOne * 10 ^ (310 + (-e).toNat) :=
    calc
      unitsInOne * 10 ^ (310 + (-e).toNat)
        ≤ unitsInOne * 10 ^ ((Nat.toDigits 10 c).length - 1 + e.toNat) :=
        Nat.mul_le_mul_left _ (Nat.pow_le_pow_right (by decide) places)
      _ = 10 ^ ((Nat.toDigits 10 c).length - 1) * unitsInOne * 10 ^ e.toNat := by
        rw [Nat.pow_add, Nat.mul_left_comm, Nat.mul_assoc]
      _ ≤ c * unitsInOne * 10 ^ e.toNat :=
        Nat.mul_le_mul_right _ (Nat.mul_le_mul_right _ (pow_le_of_length pos))
      _ < unitsInOne * 10 ^ 310 * 10 ^ (-e).toNat := most
      _ = unitsInOne * 10 ^ (310 + (-e).toNat) := by rw [Nat.pow_add, Nat.mul_assoc]
  exact Nat.lt_irrefl _ less

theorem decade_range (normal : m.Normal) (pos : 0 < m.significand)
    (holds : m.neighbourhood.holds (.ofExponent e) c = true) :
    c ≠ 0 ∧ -330 ≤ e + ((Nat.toDigits 10 c).length : Int) ∧
      e + ((Nat.toDigits 10 c).length : Int) ≤ 310 := by
  have near := near_of_holds holds
  have denPos : 0 < 10 ^ (-e).toNat := Nat.pow_pos (by decide)
  have least := near.num_pos pos
  have nonzero : c ≠ 0 := by
    rintro rfl
    rw [Nat.zero_mul, Nat.zero_mul] at least
    omega
  have positive := Nat.pos_of_ne_zero nonzero
  exact ⟨nonzero, decade_ge positive least, decade_le positive (near.num_lt normal denPos)⟩

end Range

end Magnitude

end Reckon.Decimal
