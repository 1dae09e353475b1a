/-
  The bits of a double.

  A finite double is its sign and the code of its magnitude, so taking it apart loses
  nothing (`floatOfCode_of_finite`).  A magnitude that comes from a double is in its normal
  form (`Normal`): it has the 53 digits that fit, or else the smallest scale.
-/
import Mathlib
import Reckon.Decimal.Double

namespace Reckon.Decimal

/-! ### Magnitudes -/

/-- The form that the magnitude of a double has: 53 binary digits, or the smallest scale. -/
structure Magnitude.Normal (m : Magnitude) : Prop where
  fits : m.significand < 2 ^ 53
  full : 2 ^ 52 ≤ m.significand ∨ m.scale = 0
  scale : m.scale ≤ 2045

namespace Magnitude

variable {m : Magnitude} {field fraction : Nat}

theorem normal_ofFields (finite : field < 2047) (small : fraction < 2 ^ 52) :
    (ofFields field fraction).Normal := by
  unfold ofFields
  split
  · exact ⟨Nat.lt_trans small (by decide), Or.inr rfl, Nat.zero_le _⟩
  · refine ⟨?_, Or.inl (Nat.le_add_right _ _), ?_⟩
    · change 2 ^ 52 + fraction < 2 ^ 53
      omega
    · change field - 1 ≤ 2045
      omega

theorem code_ofFields (field fraction : Nat) :
    (ofFields field fraction).code = field * 2 ^ 52 + fraction := by
  unfold ofFields
  split
  · rename_i zero
    simp [code, zero]
  · change (field - 1) * 2 ^ 52 + (2 ^ 52 + fraction) = _
    omega

theorem Normal.code_lt (normal : m.Normal) : m.code < infinityCode := by
  have fits := normal.fits
  have scale := normal.scale
  change m.scale * 2 ^ 52 + m.significand < 2047 * 2 ^ 52
  omega

end Magnitude

section Finite

variable {x : Float} {negative : Bool} {m : Magnitude}

theorem fields_of_finite (finite : Double.ofFloat x = .finite negative m) :
    x.toBits.toNat % 2 ^ 63 / 2 ^ 52 ≠ 2047 ∧ negative = decide (2 ^ 63 ≤ x.toBits.toNat) ∧
      m = .ofFields (x.toBits.toNat % 2 ^ 63 / 2 ^ 52) (x.toBits.toNat % 2 ^ 52) := by
  unfold Double.ofFloat at finite
  simp only at finite
  split at finite
  · split at finite <;> cases finite
  · rename_i notMax
    cases finite
    exact ⟨notMax, rfl, rfl⟩

theorem normal_of_finite (finite : Double.ofFloat x = .finite negative m) : m.Normal := by
  obtain ⟨notMax, -, rfl⟩ := fields_of_finite finite
  have lt : x.toBits.toNat < 2 ^ 64 := x.toBits.toBitVec.isLt
  exact Magnitude.normal_ofFields (by omega) (Nat.mod_lt _ (by decide))

/-- Taking a finite double apart loses nothing. -/
theorem floatOfCode_of_finite (finite : Double.ofFloat x = .finite negative m) :
    floatOfCode negative m.code = x := by
  obtain ⟨notMax, rfl, rfl⟩ := fields_of_finite finite
  have lt : x.toBits.toNat < 2 ^ 64 := x.toBits.toBitVec.isLt
  rw [floatOfCode, Magnitude.code_ofFields]
  have sum : (if decide (2 ^ 63 ≤ x.toBits.toNat) then 2 ^ 63 else 0) +
      (x.toBits.toNat % 2 ^ 63 / 2 ^ 52 * 2 ^ 52 + x.toBits.toNat % 2 ^ 52) =
      x.toBits.toNat := by
    by_cases sign : 2 ^ 63 ≤ x.toBits.toNat
    · simp only [sign, decide_true, if_true]
      omega
    · simp only [sign, decide_false, Bool.false_eq_true, if_false]
      omega
  have same : UInt64.ofNat ((if decide (2 ^ 63 ≤ x.toBits.toNat) then 2 ^ 63 else 0) +
      (x.toBits.toNat % 2 ^ 63 / 2 ^ 52 * 2 ^ 52 + x.toBits.toNat % 2 ^ 52)) = x.toBits :=
    (congrArg UInt64.ofNat sum).trans UInt64.ofNat_toNat
  exact (congrArg Float.ofBits same).trans (Float.ofBits_toBits x)

theorem beq_self (finite : Double.ofFloat x = .finite negative m) : (x == x) = true := by
  apply Float.beq_self_iff.2
  rintro rfl
  have nan : Double.ofFloat .nan = .nan := by decide +kernel
  rw [nan] at finite
  cases finite

end Finite

end Reckon.Decimal
