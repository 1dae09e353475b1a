/-
  Rounding back.

  Everything between the halfway points on either side of a double rounds to it, and so do
  the halfway points themselves where its significand is even (`code_nearest`).  There is one
  place where the rounded magnitude is another one: just below a power of two the doubles lie
  twice as dense, the significand is rounded up to `2 ^ 53`, and only the code, which carries
  into the exponent field, is the same.
-/
import Reckon.Proofs.Decimal.Bits
import Reckon.Decimal.Shortest

namespace Reckon.Decimal

/-- A quotient no farther from `s` than a half rounds to `s`, if `s` is even where it is as
    far as that. -/
theorem roundDiv_eq {num den s : Nat} (pos : 0 < den) (upper : 2 * num ≤ 2 * (s * den) + den)
    (lower : 2 * (s * den) ≤ 2 * num + den)
    (upperTie : 2 * num = 2 * (s * den) + den → s % 2 = 0)
    (lowerTie : 2 * (s * den) = 2 * num + den → s % 2 = 0) : roundDiv num den = s := by
  have parts := Nat.div_add_mod num den
  have small := Nat.mod_lt num pos
  have atMost : num / den < s + 1 := by
    rw [Nat.div_lt_iff_lt_mul pos, Nat.add_mul, Nat.one_mul]
    omega
  have atLeast : s < num / den + 2 := by
    have le : s * den < (num / den + 2) * den := by
      rw [Nat.add_mul, Nat.mul_comm (num / den) den]
      omega
    exact Nat.lt_of_mul_lt_mul_right le
  unfold roundDiv
  generalize num / den = q at *
  generalize num % den = r at *
  simp only
  rw [Nat.mul_comm den q] at parts
  rcases (by omega : s = q ∨ s = q + 1) with rfl | rfl
  · split
    · rfl
    · have even := upperTie (by omega)
      rw [if_neg (by omega)]
      omega
  · rw [Nat.add_mul, Nat.one_mul] at upper lower lowerTie
    rw [if_neg (by omega)]
    split
    · rfl
    · have even := lowerTie (by omega)
      omega

namespace Magnitude

variable {m : Magnitude} {num den : Nat}

/-- How far the halfway point below a magnitude is away, in quarters of its last place. -/
def gap (m : Magnitude) : Nat := if m.significand = 2 ^ 52 ∧ 0 < m.scale then 1 else 2

theorem gap_cases (m : Magnitude) : m.gap = 1 ∨ m.gap = 2 := by
  unfold gap
  split
  · exact Or.inl rfl
  · exact Or.inr rfl

/-- The quotient `num / den` lies between the halfway points on either side of a magnitude, or
    on one of them if the significand is even. -/
structure Near (m : Magnitude) (num den : Nat) : Prop where
  upper : 4 * num ≤ 4 * (m.significand * (den * 2 ^ m.scale)) + 2 * (den * 2 ^ m.scale)
  lower : 4 * (m.significand * (den * 2 ^ m.scale)) ≤ 4 * num + m.gap * (den * 2 ^ m.scale)
  upperTie : 4 * num = 4 * (m.significand * (den * 2 ^ m.scale)) + 2 * (den * 2 ^ m.scale) →
    m.significand % 2 = 0
  lowerTie : 4 * (m.significand * (den * 2 ^ m.scale)) = 4 * num + m.gap * (den * 2 ^ m.scale) →
    m.significand % 2 = 0

theorem nearest_eq {scale : Nat} (isScale : Nat.log2 (num / den) - 52 = scale) :
    nearest num den = ⟨roundDiv num (den * 2 ^ scale), scale⟩ := by
  subst isScale
  rfl

/-- A number of 53 binary digits before the place `scale` is rounded at that place. -/
theorem scale_nearest {scale : Nat} (pos : 0 < den) (lt : num < 2 ^ 53 * (den * 2 ^ scale))
    (le : 2 ^ 52 * (den * 2 ^ scale) ≤ num ∨ scale = 0) :
    Nat.log2 (num / den) - 52 = scale := by
  have shift : ∀ n, 2 ^ (n + scale) * den = 2 ^ n * (den * 2 ^ scale) := by
    intro n
    rw [Nat.pow_add, Nat.mul_assoc, Nat.mul_comm (2 ^ scale)]
  have below : num / den < 2 ^ (53 + scale) := by
    rw [Nat.div_lt_iff_lt_mul pos, shift]
    exact lt
  by_cases zero : num / den = 0
  · rcases le with le | none
    · have positive : 0 < 2 ^ 52 * (den * 2 ^ scale) :=
        Nat.mul_pos (by decide) (Nat.mul_pos pos (Nat.two_pow_pos scale))
      have above : 2 ^ (52 + scale) ≤ num / den := by
        rw [Nat.le_div_iff_mul_le pos, shift]
        exact le
      have := Nat.two_pow_pos (52 + scale)
      omega
    · rw [zero, none]
      rfl
  · have atMost := (Nat.log2_lt zero).2 below
    rcases le with le | none
    · have above : 2 ^ (52 + scale) ≤ num / den := by
        rw [Nat.le_div_iff_mul_le pos, shift]
        exact le
      have atLeast := (Nat.le_log2 zero).2 above
      omega
    · omega

namespace Near

variable (near : m.Near num den)
include near

theorem lower_two :
    4 * (m.significand * (den * 2 ^ m.scale)) ≤ 4 * num + 2 * (den * 2 ^ m.scale) := by
  have lower := near.lower
  rcases m.gap_cases with one | two
  · rw [one] at lower
    omega
  · rwa [two] at lower

/-- At its own place it rounds to the significand. -/
theorem roundDiv_place (pos : 0 < den) : roundDiv num (den * 2 ^ m.scale) = m.significand := by
  have upper := near.upper
  have lower := near.lower_two
  apply roundDiv_eq (Nat.mul_pos pos (Nat.two_pow_pos m.scale))
  · omega
  · omega
  · intro tie
    exact near.upperTie (by omega)
  · intro tie
    have tie' := near.lower
    rcases m.gap_cases with one | two
    · rw [one] at tie'
      have place : 0 < den * 2 ^ m.scale := Nat.mul_pos pos (Nat.two_pow_pos m.scale)
      omega
    · apply near.lowerTie
      rw [two]
      omega

/-- What lies below `2 ^ 52` places is near that power of two only. -/
theorem significand_eq (full : 2 ^ 52 ≤ m.significand) (pos : 0 < den)
    (small : num < 2 ^ 52 * (den * 2 ^ m.scale)) : m.significand = 2 ^ 52 := by
  have lower := near.lower_two
  have place : 0 < den * 2 ^ m.scale := Nat.mul_pos pos (Nat.two_pow_pos m.scale)
  apply Nat.le_antisymm _ full
  apply Nat.le_of_not_lt
  intro more
  have atLeast : (2 ^ 52 + 1) * (den * 2 ^ m.scale) ≤ m.significand * (den * 2 ^ m.scale) :=
    Nat.mul_le_mul_right _ more
  omega

/-- Below a power of two, one place lower, it rounds up to the power. -/
theorem roundDiv_below {n : Nat} (power : m.significand = 2 ^ 52) (isScale : m.scale = n + 1)
    (pos : 0 < den) (small : num < 2 ^ 52 * (den * 2 ^ m.scale)) :
    2 ^ 52 * (den * 2 ^ n) ≤ num ∧ num < 2 ^ 53 * (den * 2 ^ n) ∧
      roundDiv num (den * 2 ^ n) = 2 ^ 53 := by
  have lower := near.lower
  have one : m.gap = 1 := if_pos ⟨power, by omega⟩
  have double : den * 2 ^ m.scale = 2 * (den * 2 ^ n) := by
    rw [isScale, Nat.pow_succ, ← Nat.mul_assoc, Nat.mul_comm]
  have place : 0 < den * 2 ^ n := Nat.mul_pos pos (Nat.two_pow_pos n)
  rw [double] at small
  rw [double, power, one] at lower
  refine ⟨by omega, by omega, ?_⟩
  apply roundDiv_eq place
  · omega
  · omega
  · exact fun _ => rfl
  · exact fun _ => rfl

end Near

/-- What rounds to a magnitude has its code. -/
theorem code_nearest (normal : m.Normal) (pos : 0 < den) (near : m.Near num den) :
    (nearest num den).code = m.code := by
  have fits := normal.fits
  have upper := near.upper
  have place : 0 < den * 2 ^ m.scale := Nat.mul_pos pos (Nat.two_pow_pos m.scale)
  have most : m.significand * (den * 2 ^ m.scale) ≤ (2 ^ 53 - 1) * (den * 2 ^ m.scale) :=
    Nat.mul_le_mul_right _ (by omega)
  have lt : num < 2 ^ 53 * (den * 2 ^ m.scale) := by omega
  by_cases inBinade : 2 ^ 52 * (den * 2 ^ m.scale) ≤ num ∨ m.scale = 0
  · rw [nearest_eq (scale_nearest pos lt inBinade), near.roundDiv_place pos]
  · -- Only the lower half of the gap below a power of two is left.
    have full := normal.full
    have small : num < 2 ^ 52 * (den * 2 ^ m.scale) := by omega
    have power := near.significand_eq (by omega) pos small
    obtain ⟨n, isScale⟩ : ∃ n, m.scale = n + 1 := ⟨m.scale - 1, by omega⟩
    obtain ⟨atLeast, below, rounded⟩ := near.roundDiv_below power isScale pos small
    rw [nearest_eq (scale_nearest pos below (Or.inl atLeast)), rounded]
    change n * 2 ^ 52 + 2 ^ 53 = m.scale * 2 ^ 52 + m.significand
    omega

end Magnitude

end Reckon.Decimal
