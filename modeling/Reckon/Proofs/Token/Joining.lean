/-
  Scanning two texts with a semicolon between them.

  A newline ends every piece of a text but a run of blanks, and that makes no token.  So the
  tokens of two texts with a newline and a semicolon between them are those of the first, a
  semicolon, and those of the second, which stand further on (`scanned_joined`).
-/
import Reckon.Proofs.Token.Cutting
import Reckon.Proofs.Token.Placing

namespace Reckon

/-! ### Standing further on -/

def Position.moved (n : Nat) (p : Position) : Position := { p with offset := p.offset + n }

def Span.moved (n : Nat) (s : Span) : Span := ⟨s.start.moved n, s.stop.moved n⟩

def Token.moved (n : Nat) (t : Token) : Token := { t with span := t.span.moved n }

variable {file : String} {offset : Nat} {text tail : List Char}

theorem Token.endAt_moved (n : Nat) :
    (Token.endAt file offset).moved n = .endAt file (offset + n) := rfl

/-- A text that stands further on has the same tokens there. -/
theorem scanFrom_moved (n : Nat) (file : String) (offset : Nat) (text : List Char) :
    scanFrom file (offset + n) text = (scanFrom file offset text).map (Token.moved n) := by
  fun_induction scanFrom file offset text with
  | case1 offset => rw [scanFrom, List.map_singleton, Token.endAt_moved]
  | case2 offset c next piece stop kind makes token ih =>
    have further : offset + n + byteLength piece.text = stop + n := by omega
    rw [scanFrom]
    simp only
    rw [makes, List.map_cons, further, ih]
    rfl
  | case3 offset c next piece stop makes ih =>
    have further : offset + n + byteLength piece.text = stop + n := by omega
    rw [scanFrom]
    simp only
    rw [makes, further, ih]

/-! ### Pieces before a newline -/

section Runs

variable {p : Char → Bool} {after : List Char}

/-- A run that ends within a text, or where the text does, is the same before more text. -/
theorem run_before (after : List Char)
    (ends : ∀ d ∈ (text.dropWhile p ++ after).head?, p d = false) :
    (text ++ after).takeWhile p = text.takeWhile p ∧
      (text ++ after).dropWhile p = text.dropWhile p ++ after := by
  have all : ∀ d ∈ text.takeWhile p, p d = true := fun d member => List.mem_takeWhile_imp member
  have split : text ++ after = text.takeWhile p ++ (text.dropWhile p ++ after) := by
    rw [← List.append_assoc, List.takeWhile_append_dropWhile]
  rw [split]
  exact ⟨takeWhile_run all ends, dropWhile_run all ends⟩

theorem ends_of_dropWhile_ne_nil (more : text.dropWhile p ≠ []) :
    ∀ d ∈ (text.dropWhile p ++ after).head?, p d = false := by
  intro d first
  have stops := List.head?_dropWhile_not p text
  obtain ⟨e, rest, eq⟩ := List.exists_cons_of_ne_nil more
  rw [eq] at first stops
  cases first
  exact stops

theorem ends_of_head (stops : ∀ d ∈ after.head?, p d = false) :
    ∀ d ∈ (text.dropWhile p ++ after).head?, p d = false := by
  by_cases whole : text.dropWhile p = []
  · rw [whole]
    exact stops
  · exact ends_of_dropWhile_ne_nil whole

end Runs

/-- What follows a text that `c` begins: a newline and a semicolon, and then more. -/
def separated (tail : List Char) : List Char := '\n' :: ';' :: tail

/-- Before a newline a text has the pieces that it has by itself, but for a run of blanks at
    its end, which takes the newline as well. -/
theorem lexeme_separated (c : Char) (next tail : List Char) :
    lexeme c (next ++ separated tail) =
        { lexeme c next with rest := (lexeme c next).rest ++ separated tail } ∨
      (lexeme c next).kind = none ∧ (lexeme c next).rest = [] ∧
        lexeme c (next ++ separated tail) =
          ⟨none, (lexeme c next).text ++ ['\n'], ';' :: tail⟩ := by
  have run : ∀ {p : Char → Bool}, p '\n' = false →
      (next ++ separated tail).takeWhile p = next.takeWhile p ∧
        (next ++ separated tail).dropWhile p = next.dropWhile p ++ separated tail := by
    intro p stops
    apply run_before (separated tail)
    apply ends_of_head
    intro d first
    cases first
    exact stops
  unfold lexeme
  split
  · have word := run (p := isWordChar) rfl
    left
    rw [word.1, word.2]
  split
  · have number := run (p := isNumberChar) rfl
    left
    rw [number.1, number.2]
  split
  · by_cases whole : next.dropWhile Text.isBlank = []
    · right
      have blank : ∀ d ∈ next ++ ['\n'], Text.isBlank d = true := by
        intro d member
        rcases List.mem_append.1 member with among | last
        · exact List.dropWhile_eq_nil_iff.1 whole d among
        · rw [List.mem_singleton.1 last]
          rfl
      have ends : ∀ d ∈ (';' :: tail).head?, Text.isBlank d = false := by
        intro d first
        cases first
        rfl
      have split : next ++ separated tail = (next ++ ['\n']) ++ ';' :: tail := by
        rw [List.append_assoc]
        rfl
      have all : next.takeWhile Text.isBlank = next := by
        have parts := List.takeWhile_append_dropWhile (p := Text.isBlank) (l := next)
        rwa [whole, List.append_nil] at parts
      refine ⟨rfl, whole, ?_⟩
      rw [split, takeWhile_run blank ends, dropWhile_run blank ends, all]
      rfl
    · have blank := run_before (separated tail) (ends_of_dropWhile_ne_nil whole)
      left
      rw [blank.1, blank.2]
  split
  · have comment := run (p := isCommentChar) rfl
    left
    rw [comment.1, comment.2]
  · left
    rfl

/-! ### Joined texts -/

def Token.semicolon (file : String) (offset : Nat) : Token :=
  ⟨.char ';', ";", .within file offset (offset + 1)⟩

theorem scanFrom_semicolon (file : String) (offset : Nat) (tail : List Char) :
    scanFrom file offset (';' :: tail) =
      .semicolon file offset :: scanFrom file (offset + 1) tail := by
  have piece : lexeme ';' tail = ⟨some (.char ';'), [';'], tail⟩ := lexeme_symbol rfl tail
  rw [scanFrom, piece]
  rfl

theorem scanFrom_newline (file : String) (offset : Nat) (tail : List Char) :
    scanFrom file offset (separated tail) = scanFrom file (offset + 1) (';' :: tail) := by
  have blank : lexeme '\n' (';' :: tail) = ⟨none, ['\n'], ';' :: tail⟩ := rfl
  rw [separated, scanFrom, blank]
  rfl

/-- The tokens of a text before a newline and a semicolon are those that it has by itself. -/
theorem scanFrom_separated (file : String) (offset : Nat) (text tail : List Char) :
    ∃ tokens, scanFrom file offset text = tokens ++ [.endAt file (offset + byteLength text)] ∧
      scanFrom file offset (text ++ separated tail) =
        tokens ++ .semicolon file (offset + byteLength text + 1) ::
          scanFrom file (offset + byteLength text + 2) tail := by
  fun_induction scanFrom file offset text with
  | case1 offset =>
    refine ⟨[], rfl, ?_⟩
    rw [List.nil_append, scanFrom_newline]
    exact scanFrom_semicolon file (offset + 1) tail
  | case2 offset c next piece stop kind makes token ih =>
    obtain ⟨tokens, eq, joined⟩ := ih
    have split : piece.text ++ piece.rest = c :: next := lexeme_text_append c next
    have length : offset + byteLength (c :: next) = stop + byteLength piece.rest := by
      rw [← split, byteLength_append, ← Nat.add_assoc]
    refine ⟨token :: tokens, by rw [eq, length]; rfl, ?_⟩
    rcases lexeme_separated c next tail with same | ⟨absurd, -⟩
    · rw [List.cons_append, scanFrom, same, length]
      simp only
      rw [makes]
      exact congrArg (token :: ·) joined
    · rw [absurd] at makes
      cases makes
  | case3 offset c next piece stop makes ih =>
    obtain ⟨tokens, eq, joined⟩ := ih
    have split : piece.text ++ piece.rest = c :: next := lexeme_text_append c next
    have length : offset + byteLength (c :: next) = stop + byteLength piece.rest := by
      rw [← split, byteLength_append, ← Nat.add_assoc]
    refine ⟨tokens, by rw [eq, length], ?_⟩
    rw [length, ← joined]
    rcases lexeme_separated c next tail with same | ⟨-, whole, longer⟩
    · rw [List.cons_append, scanFrom, same]
      simp only
      rw [makes]
    · -- Blanks at the end of the text take the newline with them.
      have rest : piece.rest = [] := whole
      have further : offset + byteLength (piece.text ++ ['\n']) = stop + 1 := by
        rw [byteLength_append, ← Nat.add_assoc]
        rfl
      rw [List.cons_append, scanFrom, longer, rest, List.nil_append, scanFrom_newline, ← further]

end Reckon
