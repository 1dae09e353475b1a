/-
  Where a text is cut.

  A piece of text is a token by itself where the next character does not go on with it: a
  word before no letter or digit, a number before no digit or point (`Breaks`).  A symbol
  always is, and a blank makes no token.  `Scanned` says of tokens that a text is cut into
  them, wherever it stands, and each kind of piece has one lemma that takes its token off.
-/
import Reckon.Proofs.Decimal.ReadBack
import Reckon.Token.Scan

namespace Reckon

variable {file : String} {c : Char} {text rest : List Char} {tokens : List Token}

/-! ### Classes of characters -/

def isSymbol (c : Char) : Bool :=
  !isWordChar c && c != '.' && c != '#' && !Text.isBlank c

/-- An ASCII letter with letters and digits after it, and no reserved word. -/
def IsName (name : String) : Prop :=
  (∃ c rest, name.toList = c :: rest ∧ isLetter c = true ∧ rest.all isWordChar = true) ∧
    name ≠ "def" ∧ name ≠ "extern"

theorem toNat_isDigit (digit : c.isDigit = true) : 48 ≤ c.toNat ∧ c.toNat ≤ 57 := by
  simp only [Char.isDigit, Bool.and_eq_true, decide_eq_true_eq] at digit
  exact ⟨UInt32.le_iff_toNat_le.1 digit.1, UInt32.le_iff_toNat_le.1 digit.2⟩

theorem toNat_isLetter (letter : isLetter c = true) :
    65 ≤ c.toNat ∧ c.toNat ≤ 90 ∨ 97 ≤ c.toNat ∧ c.toNat ≤ 122 := by
  simp only [isLetter, Char.isAlpha, Char.isUpper, Char.isLower, Bool.or_eq_true,
    Bool.and_eq_true, decide_eq_true_eq] at letter
  rcases letter with upper | lower
  · exact Or.inl ⟨UInt32.le_iff_toNat_le.1 upper.1, UInt32.le_iff_toNat_le.1 upper.2⟩
  · exact Or.inr ⟨UInt32.le_iff_toNat_le.1 lower.1, UInt32.le_iff_toNat_le.1 lower.2⟩

theorem not_isLetter_of_isDigit (digit : c.isDigit = true) : isLetter c = false := by
  have range := toNat_isDigit digit
  apply Bool.eq_false_iff.2
  intro letter
  have := toNat_isLetter letter
  omega

theorem isWordChar_of_isLetter (letter : isLetter c = true) : isWordChar c = true := by
  rw [isWordChar, Char.isAlphanum, show c.isAlpha = true from letter, Bool.true_or]

theorem isWordChar_of_isDigit (digit : c.isDigit = true) : isWordChar c = true := by
  rw [isWordChar, Char.isAlphanum, digit, Bool.or_true]

theorem not_isLetter_of_isNumberChar (number : isNumberChar c = true) : isLetter c = false := by
  rcases (Bool.or_eq_true _ _).mp number with digit | point
  · exact not_isLetter_of_isDigit digit
  · rw [eq_of_beq point]
    rfl

theorem classes_of_isBlank (blank : Text.isBlank c = true) :
    isLetter c = false ∧ isNumberChar c = false := by
  simp only [Text.isBlank, Bool.or_eq_true, Bool.and_eq_true, decide_eq_true_eq,
    beq_iff_eq] at blank
  constructor
  · apply Bool.eq_false_iff.2
    intro letter
    have := toNat_isLetter letter
    omega
  · apply Bool.eq_false_iff.2
    intro number
    rcases (Bool.or_eq_true _ _).mp number with digit | point
    · have := toNat_isDigit digit
      omega
    · rw [eq_of_beq point, show '.'.toNat = 46 from rfl] at blank
      omega

/-- The text does not go on with a word or a number that stands before it. -/
def Breaks (text : List Char) : Prop :=
  ∀ c ∈ text.head?, isWordChar c = false ∧ isNumberChar c = false

theorem breaks_nil : Breaks [] := nofun

theorem breaks_symbol (symbol : isSymbol c = true) (rest : List Char) : Breaks (c :: rest) := by
  intro d first
  cases first
  simp only [isSymbol, Bool.and_eq_true, Bool.not_eq_true', bne_iff_ne] at symbol
  obtain ⟨⟨⟨notWord, notPoint⟩, -⟩, -⟩ := symbol
  have notDigit : c.isDigit = false :=
    Bool.eq_false_iff.2 fun digit => Bool.eq_false_iff.1 notWord (isWordChar_of_isDigit digit)
  refine ⟨notWord, ?_⟩
  rw [isNumberChar, notDigit]
  simpa using notPoint

theorem breaks_space (rest : List Char) : Breaks (' ' :: rest) := by
  intro d first
  cases first
  exact ⟨rfl, rfl⟩

/-! ### Pieces -/

theorem lexeme_word (letter : isLetter c = true) (all : text.all isWordChar = true)
    (breaks : Breaks rest) :
    lexeme c (text ++ rest) = ⟨some (wordKind (c :: text)), c :: text, rest⟩ := by
  have letters := List.all_eq_true.1 all
  have ends : ∀ d ∈ rest.head?, isWordChar d = false := fun d first => (breaks d first).1
  rw [lexeme, if_pos letter, takeWhile_run letters ends, dropWhile_run letters ends]

theorem lexeme_number (number : isNumberChar c = true)
    (digits : ∀ d ∈ text, isNumberChar d = true) (breaks : Breaks rest) :
    lexeme c (text ++ rest) = ⟨some .number, c :: text, rest⟩ := by
  have ends : ∀ d ∈ rest.head?, isNumberChar d = false := fun d first => (breaks d first).2
  have noLetter := Bool.eq_false_iff.1 (not_isLetter_of_isNumberChar number)
  rw [lexeme, if_neg noLetter, if_pos number, takeWhile_run digits ends,
    dropWhile_run digits ends]

theorem lexeme_symbol (symbol : isSymbol c = true) (rest : List Char) :
    lexeme c rest = ⟨some (.char c), [c], rest⟩ := by
  obtain ⟨notWord, notNumber⟩ := breaks_symbol symbol rest c rfl
  simp only [isSymbol, Bool.and_eq_true, Bool.not_eq_true', bne_iff_ne] at symbol
  obtain ⟨⟨-, notComment⟩, notBlank⟩ := symbol
  have noLetter : isLetter c = false :=
    Bool.eq_false_iff.2 fun letter => Bool.eq_false_iff.1 notWord (isWordChar_of_isLetter letter)
  simp [lexeme, noLetter, notNumber, notBlank, notComment]

/-! ### Scanning -/

def Scanned (file : String) (text : List Char) (tokens : List Token) : Prop :=
  ∃ offset, tokens = scanFrom file offset text

theorem scanned_tokenize (source file : String) :
    Scanned file source.toList (tokenize source file) := ⟨0, rfl⟩

theorem Scanned.nil (scanned : Scanned file [] tokens) : ∃ t, tokens = [t] ∧ t.kind = .eof := by
  obtain ⟨offset, rfl⟩ := scanned
  rw [scanFrom]
  exact ⟨_, rfl, rfl⟩

theorem Scanned.token {kind : TokenKind} {next : List Char}
    (piece : lexeme c next = ⟨some kind, text, rest⟩) (scanned : Scanned file (c :: next) tokens) :
    ∃ t after, tokens = t :: after ∧ t.kind = kind ∧ t.text = String.ofList text ∧
      Scanned file rest after := by
  obtain ⟨offset, rfl⟩ := scanned
  rw [scanFrom, piece]
  exact ⟨_, _, rfl, rfl, rfl, _, rfl⟩

theorem Scanned.symbol (scanned : Scanned file (c :: rest) tokens) (symbol : isSymbol c = true) :
    ∃ t after, tokens = t :: after ∧ t.kind = .char c ∧ Scanned file rest after := by
  obtain ⟨t, after, eq, kind, -, others⟩ := scanned.token (lexeme_symbol symbol rest)
  exact ⟨t, after, eq, kind, others⟩

theorem wordKind_name {name : String} (notDef : name ≠ "def") (notExtern : name ≠ "extern") :
    wordKind name.toList = .identifier := by
  rw [wordKind, if_neg (mt String.toList_injective notDef),
    if_neg (mt String.toList_injective notExtern)]

theorem Scanned.name {name : String} (scanned : Scanned file (name.toList ++ rest) tokens)
    (isName : IsName name) (breaks : Breaks rest) :
    ∃ t after, tokens = t :: after ∧ t.kind = .identifier ∧ t.text = name ∧
      Scanned file rest after := by
  obtain ⟨⟨c, letters, chars, letter, all⟩, notDef, notExtern⟩ := isName
  have piece := lexeme_word letter all breaks
  rw [← chars, wordKind_name notDef notExtern] at piece
  rw [chars] at scanned
  obtain ⟨t, after, eq, kind, text, others⟩ := scanned.token piece
  exact ⟨t, after, eq, kind, text.trans String.ofList_toList, others⟩

/-- A text that reads as a plain numeral is cut off as one number. -/
theorem Scanned.number {digits : Nat} {e : Int} (scanned : Scanned file (text ++ rest) tokens)
    (plain : Decimal.Plain text digits e) (breaks : Breaks rest) :
    ∃ t after, tokens = t :: after ∧ t.kind = .number ∧ t.text = String.ofList text ∧
      Scanned file rest after := by
  obtain ⟨c, more, rfl, -⟩ := plain.head
  obtain ⟨number, digits⟩ := List.forall_mem_cons.1 plain.chars
  exact scanned.token (lexeme_number number digits breaks)

/-- A blank makes no token, whether other blanks follow it or not. -/
theorem Scanned.blank (scanned : Scanned file (c :: rest) tokens)
    (isBlank : Text.isBlank c = true) : Scanned file rest tokens := by
  obtain ⟨offset, rfl⟩ := scanned
  have piece : ∀ {c : Char} (next : List Char), Text.isBlank c = true → lexeme c next =
      ⟨none, c :: next.takeWhile Text.isBlank, next.dropWhile Text.isBlank⟩ := by
    intro c next isBlank
    obtain ⟨noLetter, noNumber⟩ := classes_of_isBlank isBlank
    simp [lexeme, noLetter, noNumber, isBlank]
  rw [scanFrom, piece rest isBlank]
  cases rest with
  | nil => exact ⟨_, rfl⟩
  | cons d next =>
    refine ⟨offset + byteLength [c], ?_⟩
    by_cases more : Text.isBlank d = true
    · rw [scanFrom, piece next more]
      simp [more, Nat.add_assoc]
    · simp [more]

theorem Scanned.space (scanned : Scanned file (' ' :: rest) tokens) :
    Scanned file rest tokens := scanned.blank rfl

end Reckon
