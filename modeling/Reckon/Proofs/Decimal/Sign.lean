/-
  Doubles without a sign.

  The code of a magnitude is at most that of infinity, so the bits of a double that is put
  together without a sign have a zero in front and stand for no NaN (`unsigned_codeBits`).
  Such a double is a number that is not below zero (`notNegative_floatOfCode`).  The comparison
  with zero goes by the parts that the bits are unpacked to, and not by the magnitude.
-/
import Reckon.Proofs.Decimal.Bits

namespace Reckon.Decimal

open Float.Model (Format UnpackedFloat)

variable {code : Nat}

/-! ### Bits -/

def codeBits (code : Nat) : BitVec Format.binary64.numBits := BitVec.ofNat 64 code

theorem toNat_codeBits (small : code ≤ infinityCode) : (codeBits code).toNat = code := by
  have lt : code < 2 ^ 64 := Nat.lt_of_le_of_lt small (by decide)
  exact Nat.mod_eq_of_lt lt

theorem unpackSign_codeBits (small : code ≤ infinityCode) :
    UnpackedFloat.unpackSign (codeBits code) = 0#1 := by
  have lt : code < 2 ^ 63 := Nat.lt_of_le_of_lt small (by decide)
  apply BitVec.eq_of_toNat_eq
  rw [UnpackedFloat.unpackSign_def, BitVec.extractLsb'_toNat, toNat_codeBits small]
  change code >>> 63 % 2 ^ 1 = 0
  rw [Nat.shiftRight_eq_div_pow]
  omega

/-- The greatest exponent is that of infinity alone. -/
theorem unpackMantissa_codeBits (small : code ≤ infinityCode)
    (greatest : UnpackedFloat.unpackExponent (codeBits code) = -1#11) :
    UnpackedFloat.unpackMantissa (codeBits code) = 0#52 := by
  have exponent := congrArg BitVec.toNat greatest
  rw [UnpackedFloat.unpackExponent_def, BitVec.extractLsb'_toNat, toNat_codeBits small] at exponent
  apply BitVec.eq_of_toNat_eq
  rw [UnpackedFloat.unpackMantissa_def, BitVec.extractLsb'_toNat, toNat_codeBits small]
  change code >>> 52 % 2 ^ 11 = 2047 at exponent
  change code ≤ 2047 * 2 ^ 52 at small
  change code >>> 0 % 2 ^ 52 = 0
  rw [Nat.shiftRight_eq_div_pow] at exponent ⊢
  omega

theorem bits_floatOfCode (small : code ≤ infinityCode) :
    (floatOfCode false code).toBits.toBitVec = codeBits code := by
  have valid : Format.binary64.Valid (codeBits code) := by
    constructor
    intro greatest mantissa
    exact absurd (unpackMantissa_codeBits small greatest) mantissa
  have bits : (if false = true then Nat.pow 2 63 else 0) + code = code := Nat.zero_add code
  rw [floatOfCode, bits]
  exact UnpackedFloat.pack_unpack_of_valid valid

theorem unpack_floatOfCode (small : code ≤ infinityCode) :
    (floatOfCode false code).toModel.unpack =
      UnpackedFloat.unpack Format.binary64 (codeBits code) :=
  congrArg (UnpackedFloat.unpack Format.binary64) (bits_floatOfCode small)

/-- What bits without a sign stand for, unless they stand for NaN. -/
inductive Unsigned : UnpackedFloat → Prop where
  | infinity : Unsigned (.infinity .positive)
  | zero : Unsigned (.zero .positive)
  | finite (mantissa : Nat) (exponent : Int) (pos : 0 < mantissa) :
    Unsigned (.finite .positive mantissa exponent pos)

theorem unsigned_codeBits (small : code ≤ infinityCode) :
    Unsigned (UnpackedFloat.unpack Format.binary64 (codeBits code)) := by
  have sign : UnpackedFloat.Sign.ofBitVec (UnpackedFloat.unpackSign (codeBits code)) =
      .positive := by
    rw [unpackSign_codeBits small]
    rfl
  unfold UnpackedFloat.unpack
  simp only [sign]
  split
  · rename_i greatest
    rw [if_pos (unpackMantissa_codeBits small greatest)]
    exact .infinity
  · split
    · split
      · exact .zero
      · exact .finite _ _ _
    · exact .finite _ _ _

/-! ### Comparison with zero -/

theorem Unsigned.number {x : UnpackedFloat} (unsigned : Unsigned x) : x.isNaN = false := by
  cases unsigned <;> rfl

theorem Unsigned.zero_le {x : UnpackedFloat} (unsigned : Unsigned x) :
    (UnpackedFloat.zero .positive).le x = true := by
  cases unsigned <;> rfl

/-- A number that is not below zero, and not the zero with a sign either. -/
structure NotNegative (x : Float) : Prop where
  number : x.isNaN = false
  zero_le : 0 ≤ x
  unsigned : x.toBits.toNat < 2 ^ 63

theorem notNegative_floatOfCode (small : code ≤ infinityCode) :
    NotNegative (floatOfCode false code) := by
  have unsigned := unsigned_codeBits small
  rw [← unpack_floatOfCode small] at unsigned
  have bits : (floatOfCode false code).toBits.toNat = code := by
    rw [← UInt64.toNat_toBitVec, bits_floatOfCode small, toNat_codeBits small]
  constructor
  · exact unsigned.number
  · exact decide_eq_true unsigned.zero_le
  · rw [bits]
    exact Nat.lt_of_le_of_lt small (by decide)

theorem notNegative_zero : NotNegative 0 := notNegative_floatOfCode (Nat.zero_le infinityCode)

end Reckon.Decimal
