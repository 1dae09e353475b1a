/-
  Doubles as decimal text.

  Two layouts: the shortest digits, placed as a style says, and a fixed number of
  places of the exact value.  Neither has a sign for NaN; both write the sign of a
  negative zero.
-/
import Reckon.Decimal.Shortest

namespace Reckon.Decimal

structure Style where
  /-- Leading-digit places written without an exponent, from the first up to but not
      including the second; all of them when there is no range. -/
  positional : Option (Int × Int)
  /-- Whether a whole number keeps a point and a zero. -/
  keepPoint : Bool
deriving Repr

def digitText (n : Nat) : List Char := Nat.toDigits 10 n

def zeros (n : Nat) : List Char := List.replicate n '0'

/-- The digits with the point where it belongs and zeros up to it. -/
def positionalText (keepPoint : Bool) (s : Scientific) : List Char :=
  let digits := digitText s.digits
  if 0 ≤ s.exponent then
    digits ++ zeros s.exponent.toNat ++ (if keepPoint then ['.', '0'] else [])
  else
    let places := (-s.exponent).toNat
    if places < digits.length then
      digits.take (digits.length - places) ++ '.' :: digits.drop (digits.length - places)
    else '0' :: '.' :: (zeros (places - digits.length) ++ digits)

/-- The first digit, a point and the other digits if there are any, and the power of ten. -/
def exponentText (s : Scientific) : List Char :=
  let digits := digitText s.digits
  let decade := s.exponent + (digits.length - 1 : Nat)
  digits.take 1 ++ (if digits.length = 1 then [] else '.' :: digits.drop 1) ++
    'e' :: (if decade < 0 then ['-'] else []) ++ digitText decade.natAbs

/-- The shortest digits of a magnitude in a style.  Zero has no leading digit and is
    written as a whole number. -/
def Style.layout (style : Style) (m : Magnitude) : List Char :=
  let s := m.shortest
  let decade := s.exponent + (digitCount s.digits - 1 : Nat)
  let positional := match style.positional with
    | none => true
    | some (first, last) => m.significand = 0 || (first ≤ decade && decade < last)
  if positional then positionalText style.keepPoint s else exponentText s

/-- The exact value rounded to a number of places, a half going to the even neighbour. -/
def fixedText (places : Nat) (m : Magnitude) : List Char :=
  let digits := digitText (roundDiv (m.units * Nat.pow 10 places) unitsInOne)
  let digits := zeros (places + 1 - digits.length) ++ digits
  if places = 0 then digits
  else digits.take (digits.length - places) ++ '.' :: digits.drop (digits.length - places)

def write (magnitude : Magnitude → List Char) (x : Float) : String :=
  let sign (negative : Bool) : List Char := if negative then ['-'] else []
  match Double.ofFloat x with
  | .nan => "NaN"
  | .infinite negative => String.ofList (sign negative ++ ['i', 'n', 'f'])
  | .finite negative m => String.ofList (sign negative ++ magnitude m)

def Style.write (style : Style) (x : Float) : String := Decimal.write style.layout x

def fixed (places : Nat) (x : Float) : String := Decimal.write (fixedText places) x

end Reckon.Decimal
