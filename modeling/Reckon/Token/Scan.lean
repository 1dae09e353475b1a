/-
  From text to tokens.

  The text is cut into lexemes from left to right, each as long as its class allows:
  words of ASCII letters and digits that begin with a letter, runs of digits and
  points, runs of blanks, comments from `#` to the end of the line, and single
  characters for the rest.  Blanks and comments make no token.  Scanning cannot fail:
  a character without meaning becomes a token that the grammar refuses.

  `lexeme_text_append` says that no character is lost, `lexeme_rest_length` that
  scanning goes forward.
-/
import Reckon.Token.Basic
import Reckon.Text.Blank

namespace Reckon

/-! ### Character classes -/

def isLetter (c : Char) : Bool := c.isAlpha

def isWordChar (c : Char) : Bool := c.isAlphanum

def isNumberChar (c : Char) : Bool := c.isDigit || c == '.'

def isCommentChar (c : Char) : Bool := c != '\n' && c != '\r'

def wordKind (word : List Char) : TokenKind :=
  if word = "def".toList then .defKeyword
  else if word = "extern".toList then .externKeyword
  else .identifier

/-! ### Lexemes -/

/-- The first piece of a text and what follows it. -/
structure Lexeme where
  /-- The kind of the token it makes, if it makes one. -/
  kind : Option TokenKind
  text : List Char
  rest : List Char

def lexeme (c : Char) (next : List Char) : Lexeme :=
  if isLetter c then
    let word := c :: next.takeWhile isWordChar
    ⟨some (wordKind word), word, next.dropWhile isWordChar⟩
  else if isNumberChar c then
    ⟨some .number, c :: next.takeWhile isNumberChar, next.dropWhile isNumberChar⟩
  else if Text.isBlank c then
    ⟨none, c :: next.takeWhile Text.isBlank, next.dropWhile Text.isBlank⟩
  else if c = '#' then
    ⟨none, c :: next.takeWhile isCommentChar, next.dropWhile isCommentChar⟩
  else ⟨some (.char c), [c], next⟩

/-- The piece and the rest make up the text. -/
theorem lexeme_text_append (c : Char) (next : List Char) :
    (lexeme c next).text ++ (lexeme c next).rest = c :: next := by
  unfold lexeme
  split
  · simp
  split
  · simp
  split
  · simp
  split
  · simp
  · rfl

theorem length_dropWhile_le {α : Type _} (p : α → Bool) (l : List α) :
    (l.dropWhile p).length ≤ l.length :=
  (List.dropWhile_sublist p).length_le

/-- What follows a piece is no longer than what followed its first character. -/
theorem lexeme_rest_length (c : Char) (next : List Char) :
    (lexeme c next).rest.length ≤ next.length := by
  unfold lexeme
  split
  · exact length_dropWhile_le _ _
  split
  · exact length_dropWhile_le _ _
  split
  · exact length_dropWhile_le _ _
  split
  · exact length_dropWhile_le _ _
  · exact Nat.le_refl _

/-! ### Scanning -/

/-- The tokens of a text that begins at byte `offset` of a file, the end included. -/
def scanFrom (file : String) (offset : Nat) : List Char → List Token
  | [] => [.endAt file offset]
  | c :: next =>
    let piece := lexeme c next
    let stop := offset + byteLength piece.text
    match piece.kind with
    | some kind =>
      let token : Token := ⟨kind, String.ofList piece.text, .within file offset stop⟩
      token :: scanFrom file stop piece.rest
    | none => scanFrom file stop piece.rest
termination_by text => text.length
decreasing_by all_goals exact Nat.lt_succ_of_le (lexeme_rest_length c next)

def unnamedFile : String := "shell"

def tokenize (source : String) (file : String) : List Token :=
  scanFrom file 0 source.toList

end Reckon
