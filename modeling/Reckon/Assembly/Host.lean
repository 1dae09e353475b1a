/-
  Functions of the host.

  A routine without a body stands for a function of the host with the same name and
  number of parameters: some functions of mathematics, one that writes a character and
  one that writes a number.
-/
import Reckon.Decimal.Layout

namespace Reckon.Host

/-- Numbers in output have six places. -/
def numberText (x : Float) : String := Decimal.fixed 6 x

/-- The character of a code, cut to the range of a byte. -/
def byteChar (x : Float) : Char := Char.ofNat x.toUInt8.toNat

/-- The value and the written text of a host function; nothing if there is none of that
    name and number of parameters. -/
def call (name : String) (args : List Float) : Option (Float × String) :=
  match args with
  | [x] =>
    match name with
    | "sin" => some (x.sin, "")
    | "cos" => some (x.cos, "")
    | "tan" => some (x.tan, "")
    | "atan" => some (x.atan, "")
    | "sqrt" => some (x.sqrt, "")
    | "exp" => some (x.exp, "")
    | "log" => some (x.log, "")
    | "fabs" => some (x.abs, "")
    | "floor" => some (x.floor, "")
    | "ceil" => some (x.ceil, "")
    | "putchard" => some (0, String.singleton (byteChar x))
    | "printd" => some (0, numberText x ++ "\n")
    | _ => none
  | [x, y] => if name = "pow" then some (x.pow y, "") else none
  | _ => none

end Reckon.Host
