/-
  Doubles as exact numbers.

  A finite double is a whole number of units, the unit being `2 ^ (-1074)`, the
  smallest positive double: its significand, shifted left by its scale.  With that
  unit every question about decimal text is one about natural numbers.  The module
  takes a `Float` apart into sign and magnitude, puts it together again, and rounds
  an exact quotient to the nearest magnitude.
-/

namespace Reckon.Decimal

/-- The absolute value of a finite double: `significand * 2 ^ scale` units. -/
structure Magnitude where
  significand : Nat
  scale : Nat
deriving DecidableEq, Repr

def Magnitude.units (m : Magnitude) : Nat := m.significand * Nat.pow 2 m.scale

/-- How many units make one: `2 ^ 1074`. -/
def unitsInOne : Nat := Nat.pow 2 1074

inductive Double where
  | nan
  | infinite (negative : Bool)
  | finite (negative : Bool) (magnitude : Magnitude)
deriving DecidableEq, Repr

/-- The magnitude with a given exponent field and fraction.  The field 0 holds the
    numbers below `2 ^ 52` units; the others have an implicit leading bit. -/
def Magnitude.ofFields (field fraction : Nat) : Magnitude :=
  if field = 0 then ⟨fraction, 0⟩ else ⟨Nat.pow 2 52 + fraction, field - 1⟩

/-- Exponent field and fraction as one number; a significand of `2 ^ 53` carries into
    the field, as rounding up asks. -/
def Magnitude.code (m : Magnitude) : Nat := m.scale * Nat.pow 2 52 + m.significand

/-- The code of infinity; larger codes stand for NaN. -/
def infinityCode : Nat := 2047 * Nat.pow 2 52

def Double.ofFloat (x : Float) : Double :=
  let bits := x.toBits.toNat
  let negative := decide (Nat.pow 2 63 ≤ bits)
  let field := bits % Nat.pow 2 63 / Nat.pow 2 52
  let fraction := bits % Nat.pow 2 52
  if field = 2047 then
    if fraction = 0 then .infinite negative else .nan
  else .finite negative (.ofFields field fraction)

def floatOfCode (negative : Bool) (code : Nat) : Float :=
  Float.ofBits (UInt64.ofNat ((if negative then Nat.pow 2 63 else 0) + code))

/-- Put a double together; a magnitude past the largest double becomes infinity. -/
def Double.toFloat : Double → Float
  | .nan => floatOfCode false (infinityCode + Nat.pow 2 51)
  | .infinite negative => floatOfCode negative infinityCode
  | .finite negative m => floatOfCode negative (min m.code infinityCode)

/-- The quotient rounded to the nearest natural number, a half going to the even
    neighbour. -/
def roundDiv (num den : Nat) : Nat :=
  let q := num / den
  let r := num % den
  if 2 * r < den then q else if den < 2 * r then q + 1 else q + q % 2

/-- The magnitude nearest to `num / den` units, a half going to the even significand. -/
def Magnitude.nearest (num den : Nat) : Magnitude :=
  let scale := Nat.log2 (num / den) - 52
  ⟨roundDiv num (den * Nat.pow 2 scale), scale⟩

end Reckon.Decimal
