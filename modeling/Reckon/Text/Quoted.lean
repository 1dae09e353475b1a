/-
  Quoted text in messages.

  A quoted text stands between two quotes.  The quote itself, the backslash and the
  characters that cannot be shown as themselves are written as escapes, so a message
  stays on one line and shows exactly what was found.
-/
import Reckon.Text.Printable
import Reckon.Text.Attaching

namespace Reckon.Text

def hexDigits (n : Nat) : List Char := Nat.toDigits 16 n

/-- The written form of one character between two quotes. -/
def escape (quote : Char) (c : Char) : List Char :=
  if c = quote || c = '\\' then ['\\', c]
  else if c = '\n' then ['\\', 'n']
  else if c = '\r' then ['\\', 'r']
  else if c = '\t' then ['\\', 't']
  else if c.toNat = 0 then ['\\', '0']
  else if isPrintable c && !isAttaching c then [c]
  else ['\\', 'u', '\x7b'] ++ hexDigits c.toNat ++ ['\x7d']

def quoted (text : String) : String :=
  String.ofList ('"' :: text.toList.flatMap (escape '"') ++ ['"'])

def quotedChar (c : Char) : String :=
  String.ofList ('\x27' :: escape '\x27' c ++ ['\x27'])

end Reckon.Text
