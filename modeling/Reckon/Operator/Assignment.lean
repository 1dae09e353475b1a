/-
  Operator assignments.

  An assignment gives an operator its strength and is written `/=40`: one ASCII
  character, an equals sign, and a decimal integer.  The character may itself be an
  equals sign, so the text is cut at the last one.  Blanks around the integer do not
  count.
-/
import Reckon.Operator.Table
import Reckon.Text.Blank
import Reckon.Text.Quoted

namespace Reckon

inductive AssignmentFault where
  /-- There is no equals sign, or nothing before the last one. -/
  | malformed (text : String)
  /-- What stands before the last equals sign is not one ASCII character. -/
  | notOneCharacter (operator : String)
  /-- What stands after it is no integer of 32 bits. -/
  | notInteger (strength : String)
deriving DecidableEq, Repr

def AssignmentFault.message : AssignmentFault → String
  | .malformed text =>
    "operator " ++ Text.quoted text ++ " must have the form <char>=<precedence>"
  | .notOneCharacter operator =>
    "operator " ++ Text.quoted operator ++ " must be a single ASCII character"
  | .notInteger strength => "precedence " ++ Text.quoted strength ++ " is not an integer"

def cutAtLast (sep : Char) : List Char → Option (List Char × List Char)
  | [] => none
  | c :: rest =>
    match cutAtLast sep rest with
    | some (before, after) => some (c :: before, after)
    | none => if c = sep then some ([], rest) else none

def readNatural (digits : List Char) : Option Nat :=
  if digits.isEmpty || !digits.all Char.isDigit then none
  else some (Decimal.digitsValue digits)

def readInteger : List Char → Option Int
  | '-' :: digits => (readNatural digits).map fun n => -(n : Int)
  | '+' :: digits => (readNatural digits).map fun n => (n : Int)
  | digits => (readNatural digits).map fun n => (n : Int)

/-- A strength: an integer of 32 bits, blanks around it aside. -/
def readStrength (text : List Char) : Option Strength :=
  (readInteger (Text.trim text)).bind fun n =>
    if -2147483648 ≤ n ∧ n < 2147483648 then some (Int32.ofInt n) else none

def readAssignment (text : String) : Except AssignmentFault (Char × Strength) :=
  match cutAtLast '=' text.toList with
  | none | some ([], _) => .error (.malformed text)
  | some ([c], after) =>
    if c.toNat < 128 then
      match readStrength after with
      | some strength => .ok (c, strength)
      | none => .error (.notInteger (String.ofList after))
    else .error (.notOneCharacter (String.ofList [c]))
  | some (before, _) => .error (.notOneCharacter (String.ofList before))

end Reckon
