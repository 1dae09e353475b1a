/-
  The shortest decimal that reads back.

  Around every finite double lies the interval of reals that round to it.  The digits
  written for a double are those of a point of that interval on the coarsest decimal
  grid that meets it: of one to seventeen digits, the first count for which one of the
  value's two neighbours on the grid lies in the interval.  When both do, the nearer is
  taken, and of two equally near ones the upper.
-/
import Reckon.Decimal.Double

namespace Reckon.Decimal

/-- The decimal number `digits * 10 ^ exponent`. -/
structure Scientific where
  digits : Nat
  exponent : Int
deriving DecidableEq, Repr

/-- The reals that round to one double, in quarters of a unit. -/
structure Neighbourhood where
  value : Nat
  low : Nat
  high : Nat
  /-- The two ends belong to it. -/
  closed : Bool

/-- Halfway to the next double on either side.  Below a power of two the doubles lie
    twice as dense.  A half rounds to the even significand, so the ends belong to
    that one. -/
def Magnitude.neighbourhood (m : Magnitude) : Neighbourhood :=
  let step := Nat.pow 2 m.scale
  let value := 4 * m.units
  let below := if m.significand = Nat.pow 2 52 ∧ 0 < m.scale then step else 2 * step
  { value, low := value - below, high := value + 2 * step, closed := m.significand % 2 == 0 }

def quartersInOne : Nat := 4 * unitsInOne

/-- A decimal grid of spacing `10 ^ exponent`, as a fraction of natural numbers: a grid
    point `c` lies at `c * step` when the neighbourhood is stretched by `stretch`. -/
structure Grid where
  step : Nat
  stretch : Nat

def Grid.ofExponent (exponent : Int) : Grid :=
  ⟨quartersInOne * Nat.pow 10 exponent.toNat, Nat.pow 10 (-exponent).toNat⟩

def Neighbourhood.holds (nb : Neighbourhood) (g : Grid) (c : Nat) : Bool :=
  let at_ := c * g.step
  if nb.closed then nb.low * g.stretch ≤ at_ && at_ ≤ nb.high * g.stretch
  else nb.low * g.stretch < at_ && at_ < nb.high * g.stretch

/-- The neighbour of the value on the grid that is written, if one reads back. -/
def Neighbourhood.pick (nb : Neighbourhood) (g : Grid) : Option Nat :=
  let value := nb.value * g.stretch
  let c := value / g.step
  match nb.holds g c, nb.holds g (c + 1) with
  | false, false => none
  | true, false => some c
  | false, true => some (c + 1)
  | true, true => some (if value - c * g.step < (c + 1) * g.step - value then c else c + 1)

def digitCount (n : Nat) : Nat := (Nat.toDigits 10 n).length

/-- The place of the leading digit: the power of ten at or below the value.  The value
    is first moved far enough up that its whole part shows the digit. -/
def Neighbourhood.decade (nb : Neighbourhood) : Int :=
  (digitCount (nb.value * Nat.pow 10 400 / quartersInOne) : Int) - 401

def Scientific.strip (s : Scientific) : Scientific :=
  if h : 0 < s.digits ∧ s.digits % 10 = 0 then
    Scientific.strip ⟨s.digits / 10, s.exponent + 1⟩
  else s
termination_by s.digits
decreasing_by omega

/-- The exact decimal value, which a unit has because it is a power of two. -/
def Magnitude.exact (m : Magnitude) : Scientific := ⟨m.units * Nat.pow 5 1074, -1074⟩

def Magnitude.shortest (m : Magnitude) : Scientific :=
  if m.significand = 0 then ⟨0, 0⟩
  else
    let nb := m.neighbourhood
    let decade := nb.decade
    let found := (List.range 17).findSome? fun (more : Nat) =>
      (nb.pick (.ofExponent (decade - more))).map fun c => Scientific.mk c (decade - more)
    (found.getD m.exact).strip

end Reckon.Decimal
