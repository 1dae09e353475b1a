/-
  Decimal text as doubles.

  A numeral is an optional sign followed by digits with at most one point among or
  beside them, and an optional power of ten; or by one of the words for infinity and
  NaN, in any case.  Its value is the double nearest to the number written.  A text
  that merely starts with a numeral has the value of the longest one it starts with.
-/
import Reckon.Decimal.Double

namespace Reckon.Decimal

def digitsValue (digits : List Char) : Nat :=
  digits.foldl (fun n c => 10 * n + (c.toNat - '0'.toNat)) 0

/-- The double nearest to `digits * 10 ^ exponent`.  Far outside the range of the
    doubles the answer needs no arithmetic. -/
def nearestDouble (negative : Bool) (digits : Nat) (exponent : Int) : Double :=
  let decade := exponent + ((Nat.toDigits 10 digits).length : Int)
  if digits = 0 || decade < -330 then .finite negative ⟨0, 0⟩
  else if 310 < decade then .infinite negative
  else .finite negative
    (.nearest (digits * unitsInOne * Nat.pow 10 exponent.toNat)
      (Nat.pow 10 (-exponent).toNat))

/-- The power of ten after the digits: nothing, or `e`, an optional sign and digits. -/
def readExponent : List Char → Option Int
  | [] => some 0
  | c :: rest =>
    if c = 'e' || c = 'E' then
      let (negative, digits) := match rest with
        | '-' :: digits => (true, digits)
        | '+' :: digits => (false, digits)
        | digits => (false, digits)
      if digits.isEmpty || !digits.all Char.isDigit then none
      else
        let n : Int := digitsValue digits
        some (if negative then -n else n)
    else none

/-- Digits with at most one point and at least one digit, then a power of ten. -/
def readDigits (negative : Bool) (text : List Char) : Option Double :=
  let whole := text.takeWhile Char.isDigit
  let rest := text.dropWhile Char.isDigit
  let (places, rest) := match rest with
    | '.' :: after => (after.takeWhile Char.isDigit, after.dropWhile Char.isDigit)
    | _ => ([], rest)
  if whole.isEmpty && places.isEmpty then none
  else (readExponent rest).map fun exponent =>
    nearestDouble negative (digitsValue (whole ++ places)) (exponent - places.length)

def readWord (negative : Bool) (text : List Char) : Option Double :=
  let word := String.ofList (text.map Char.toLower)
  if word = "inf" || word = "infinity" then some (.infinite negative)
  else if word = "nan" then some .nan
  else none

def readNumeral (text : List Char) : Option Double :=
  let (negative, body) := match text with
    | '-' :: body => (true, body)
    | '+' :: body => (false, body)
    | body => (false, body)
  (readWord negative body).orElse fun _ => readDigits negative body

/-- The value of the longest numeral among the first `n` characters or fewer; zero if
    there is none. -/
def longestNumeral (text : List Char) : Nat → Float
  | 0 => 0
  | n + 1 =>
    match readNumeral (text.take (n + 1)) with
    | some d => d.toFloat
    | none => longestNumeral text n

def leadingNumber (text : String) : Float :=
  longestNumeral text.toList text.toList.length

end Reckon.Decimal
