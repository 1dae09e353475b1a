/-
  Arrows under the lines of a source.

  The last two lines of an excerpt are the source line and the arrow under it.  Both begin
  with as many characters, up to a bar and a blank; then one goes on with the text of the line
  behind its indentation, and the other with dashes.  There is a dash for every byte of that
  text before the reported place, so the arrow stands under the character there if the text
  before it is ASCII, and too far to the right otherwise.

  `Divides` says how a source is divided at a place in a line, for which there is one way
  (`Divides.unique`).  The main statement is `excerpt_arrow`.
-/
import Reckon.Diagnostic.Excerpt
import Reckon.Proofs.Source.Lines
import Reckon.Proofs.Text.Trim
import Reckon.Proofs.Token.Joining

namespace Reckon

variable {text before inLine rest : List Char} {source : List Char} {offset : Nat}

/-! ### Shown text -/

/-- A line is shown without its newline. -/
theorem newline_not_mem_trimEnd (oneLine : '\n' ∉ text) (rest : List Char) :
    '\n' ∉ Text.trimEnd (text ++ throughNewline rest) := by
  induction rest generalizing text with
  | nil =>
    rw [throughNewline, List.append_nil]
    exact fun member => oneLine (Text.mem_of_mem_trimEnd member)
  | cons c rest ih =>
    rw [throughNewline]
    split
    · rename_i newline
      have trimmed : Text.trimEnd (text ++ ['\n']) = Text.trimEnd text := by
        rw [Text.trimEnd, Text.trimEnd, List.reverse_append]
        rfl
      rw [newline, trimmed]
      exact fun member => oneLine (Text.mem_of_mem_trimEnd member)
    · rename_i other
      have longer : '\n' ∉ text ++ [c] := by simp [oneLine, Ne.symm other]
      have shown := ih longer
      rwa [List.append_assoc] at shown

/-- A text takes as many bytes as it has characters exactly if it is ASCII. -/
theorem byteLength_eq_length_iff : byteLength text = text.length ↔ ∀ c ∈ text, c.toNat < 128 := by
  have le : ∀ text, text.length ≤ byteLength text := by
    intro text
    induction text with
    | nil => exact Nat.le_refl 0
    | cons c rest ih =>
      have pos := c.utf8Size_pos
      rw [List.length_cons, byteLength_cons]
      omega
  have ascii : ∀ c : Char, c.utf8Size = 1 ↔ c.toNat < 128 := by
    intro c
    rw [Char.utf8Size_eq_one_iff, UInt32.le_iff_toNat_le]
    exact Nat.lt_succ_iff.symm
  induction text with
  | nil => exact iff_of_true rfl nofun
  | cons c rest ih =>
    have pos := c.utf8Size_pos
    have more := le rest
    rw [List.length_cons, byteLength_cons, List.forall_mem_cons]
    refine Iff.trans ?_ (and_congr (ascii c) ih)
    omega

/-! ### Places in a line -/

/-- A place in a line of a source: whole lines are before it, `inLine` is the part of the line
    before the place, and `rest` is what follows.  At the end of the source the line is the last
    one, and the place is before its newline. -/
structure Divides (source : List Char) (offset : Nat) (before inLine rest : List Char) : Prop where
  cut : source = before ++ (inLine ++ rest)
  starts : EndsLine before
  oneLine : '\n' ∉ inLine
  place : offset = byteLength (before ++ inLine) ∧ rest ≠ [] ∨
    offset = byteLength source ∧ (rest = [] ∨ rest = ['\n']) ∧ (inLine ++ rest = [] → before = [])

def BehindIndent (inLine rest : List Char) : Prop :=
  (∀ c ∈ inLine, isIndent c = true) → ∀ c ∈ rest.head?, isIndent c = false

theorem exists_lastLine (text : List Char) :
    ∃ before inLine, text = before ++ inLine ∧ EndsLine before ∧ '\n' ∉ inLine := by
  induction text with
  | nil => exact ⟨[], [], rfl, endsLine_nil, List.not_mem_nil⟩
  | cons c text ih =>
    obtain ⟨before, inLine, rfl, starts, oneLine⟩ := ih
    by_cases first : before = []
    · subst first
      by_cases newline : c = '\n'
      · refine ⟨[c], inLine, rfl, ?_, oneLine⟩
        rintro d last
        cases last
        exact newline
      · exact ⟨[], c :: inLine, rfl, endsLine_nil, by simp [oneLine, Ne.symm newline]⟩
    · exact ⟨c :: before, inLine, rfl,
        fun d last => starts d (by rwa [List.getLast?_cons_of_ne_nil first] at last), oneLine⟩

/-- Every boundary of a character is a place in a line. -/
theorem exists_divides (front back : List Char) :
    ∃ before inLine rest, Divides (front ++ back) (byteLength front) before inLine rest := by
  by_cases more : back = []
  · subst more
    rw [List.append_nil]
    rcases List.eq_nil_or_concat front with rfl | ⟨text, c, rfl⟩
    · exact ⟨[], [], [], rfl, endsLine_nil, List.not_mem_nil,
        Or.inr ⟨rfl, Or.inl rfl, fun _ => rfl⟩⟩
    rw [List.concat_eq_append]
    by_cases newline : c = '\n'
    · subst newline
      obtain ⟨before, inLine, rfl, starts, oneLine⟩ := exists_lastLine text
      exact ⟨before, inLine, ['\n'], List.append_assoc .., starts, oneLine,
        Or.inr ⟨rfl, Or.inr rfl, by simp⟩⟩
    · obtain ⟨before, inLine, eq, starts, oneLine⟩ := exists_lastLine (text ++ [c])
      refine ⟨before, inLine, [], by rw [List.append_nil, eq], starts, oneLine,
        Or.inr ⟨rfl, Or.inl rfl, ?_⟩⟩
      -- Otherwise the line would be closed, and the place is before the newline.
      intro none
      rw [List.append_nil] at none
      rw [none, List.append_nil] at eq
      exact absurd (starts c (by rw [← eq]; simp)) newline
  · obtain ⟨before, inLine, rfl, starts, oneLine⟩ := exists_lastLine front
    exact ⟨before, inLine, back, List.append_assoc .., starts, oneLine, Or.inl ⟨rfl, more⟩⟩

theorem throughNewline_of_end (ends : rest = [] ∨ rest = ['\n']) : throughNewline rest = rest := by
  rcases ends with rfl | rfl
  · rfl
  · rfl

theorem Divides.lineAt_eq (divides : Divides source offset before inLine rest) :
    lineAt source offset =
      ⟨1 + before.count '\n', inLine ++ throughNewline rest, byteLength inLine⟩ := by
  obtain ⟨cut, starts, oneLine, ⟨rfl, more⟩ | ⟨rfl, ends, begun⟩⟩ := divides
  · rw [cut, lineAt_inside starts oneLine more]
  · rw [cut, lineAt_end starts oneLine ends begun (Nat.le_refl _), throughNewline_of_end ends]

/-- A byte offset cuts a text at one place. -/
theorem append_inj_of_byteLength {front back front' back' : List Char}
    (same : front ++ back = front' ++ back') (length : byteLength front = byteLength front') :
    front = front' ∧ back = back' := by
  induction front generalizing front' with
  | nil =>
    cases front' with
    | nil => exact ⟨rfl, same⟩
    | cons c front' => exact absurd length (Nat.ne_of_lt (byteLength_pos (List.cons_ne_nil c _)))
  | cons c front ih =>
    cases front' with
    | nil => exact absurd length (Nat.ne_of_gt (byteLength_pos (List.cons_ne_nil c _)))
    | cons d front' =>
      rw [List.cons_append, List.cons_append] at same
      obtain ⟨rfl, others⟩ := List.cons.inj same
      obtain ⟨rfl, rfl⟩ := ih others (by simpa using length)
      exact ⟨rfl, rfl⟩

/-- A place with something behind it is before the end of the source. -/
theorem Divides.byteLength_lt (divides : Divides source offset before inLine rest)
    (more : rest ≠ []) : byteLength (before ++ inLine) < byteLength source := by
  have pos := byteLength_pos more
  rw [divides.cut, ← List.append_assoc, byteLength_append (before ++ inLine)]
  omega

/-- A source is divided at a place in one way. -/
theorem Divides.unique {before' inLine' rest' : List Char}
    (divides : Divides source offset before inLine rest)
    (other : Divides source offset before' inLine' rest') :
    before = before' ∧ inLine = inLine' ∧ rest = rest' := by
  have line := divides.lineAt_eq.symm.trans other.lineAt_eq
  simp only [Line.mk.injEq] at line
  obtain ⟨-, text, column⟩ := line
  obtain ⟨rfl, through⟩ := append_inj_of_byteLength text column
  have cut := divides.cut.symm.trans other.cut
  rcases divides.place with ⟨place, more⟩ | ⟨place, ends, -⟩
  · rcases other.place with ⟨place', -⟩ | ⟨place', -⟩
    · have length : byteLength before = byteLength before' := by
        rw [place, byteLength_append, byteLength_append] at place'
        omega
      obtain ⟨rfl, rest⟩ := append_inj_of_byteLength cut length
      exact ⟨rfl, rfl, List.append_cancel_left rest⟩
    · have inside := divides.byteLength_lt more
      omega
  · rcases other.place with ⟨place', more⟩ | ⟨-, ends', -⟩
    · have inside := other.byteLength_lt more
      omega
    · rw [throughNewline_of_end ends, throughNewline_of_end ends'] at through
      subst through
      exact ⟨List.append_cancel_right cut, rfl, rfl⟩

theorem head?_throughNewline (rest : List Char) : (throughNewline rest).head? = rest.head? := by
  cases rest with
  | nil => rfl
  | cons c rest =>
    rw [throughNewline]
    split <;> rfl

/-- All of the indentation is before the place. -/
theorem BehindIndent.indentation (behind : BehindIndent inLine rest) :
    (inLine ++ throughNewline rest).takeWhile isIndent = inLine.takeWhile isIndent ∧
      (inLine ++ throughNewline rest).dropWhile isIndent =
        inLine.dropWhile isIndent ++ throughNewline rest := by
  apply run_before
  by_cases all : inLine.dropWhile isIndent = []
  · rw [all, List.nil_append, head?_throughNewline]
    apply behind
    intro c member
    rw [← List.takeWhile_append_dropWhile (p := isIndent) (l := inLine), all, List.append_nil]
      at member
    exact List.mem_takeWhile_imp member
  · exact ends_of_dropWhile_ne_nil all

/-! ### Excerpts -/

def LastLines (text upper lower : List Char) : Prop :=
  '\n' ∉ upper ∧ '\n' ∉ lower ∧ ∃ above, text = above ++ '\n' :: (upper ++ '\n' :: lower)

def numbered (number shown : List Char) : List Char := number ++ ([' ', '|', ' '] ++ shown)

/-- The bar under that of a number, and an arrow after some dashes. -/
def pointing (number : List Char) (dashes : Nat) : List Char :=
  numbered (List.replicate number.length ' ') (List.replicate dashes '-' ++ ['^'])

theorem newline_not_mem_pointing (number : List Char) (dashes : Nat) :
    '\n' ∉ pointing number dashes := by
  simp [pointing, numbered]

theorem newline_not_mem_numbered (n : Nat) {shown : List Char} (oneLine : '\n' ∉ shown) :
    '\n' ∉ numbered (Nat.toDigits 10 n) shown := by
  have digits : '\n' ∉ Nat.toDigits 10 n := fun member =>
    nomatch Nat.isDigit_of_mem_toDigits (by decide) (by decide) member
  simp [numbered, digits, oneLine]

theorem toList_excerpt (d : Diagnostic) (source : String) :
    ∃ above, (d.excerpt source).toList =
      above ++ '\n' :: ((lineAt source.toList d.position.offset).shown ++
        '\n' :: (lineAt source.toList d.position.offset).pointer) := by
  refine ⟨(d.headline ++ "\n-> " ++ d.position.file ++ "\n" ++ String.ofList (gutter
    (Nat.toDigits 10 (lineAt source.toList d.position.offset).number).length)).toList, ?_⟩
  simp [Diagnostic.excerpt]

/-- The dashes are as many as the bytes from the indentation of the line to the place. -/
theorem Divides.pointer_eq (divides : Divides source offset before inLine rest)
    (behind : BehindIndent inLine rest) :
    (lineAt source offset).pointer =
      pointing (Nat.toDigits 10 (1 + before.count '\n'))
        (byteLength (inLine.dropWhile isIndent)) := by
  have distance : byteLength inLine - byteLength (inLine.takeWhile isIndent) =
      byteLength (inLine.dropWhile isIndent) := by
    have whole := List.takeWhile_append_dropWhile (p := isIndent) (l := inLine)
    have bytes := byteLength_append (inLine.takeWhile isIndent) (inLine.dropWhile isIndent)
    rw [whole] at bytes
    omega
  rw [divides.lineAt_eq, Line.pointer, behind.indentation.1, distance, gutter, arrow, pointing,
    numbered, List.replicate_succ']
  simp only [List.append_assoc, List.cons_append, List.nil_append]

theorem Divides.shown_eq (divides : Divides source offset before inLine rest)
    (behind : BehindIndent inLine rest) :
    (lineAt source offset).shown = numbered (Nat.toDigits 10 (1 + before.count '\n'))
      (Text.trimEnd (inLine.dropWhile isIndent ++ throughNewline rest)) := by
  rw [divides.lineAt_eq, Line.shown, behind.indentation.2, numbered, List.append_assoc]

/-- The last two lines of an excerpt have their bars in one column.  From the next column but
    one on stands the text of the line behind its indentation, without the blanks at its end,
    and under it as many dashes and then the arrow as that text has bytes before the reported
    place.  So the arrow is under the character there if and only if that text is ASCII. -/
theorem excerpt_arrow {d : Diagnostic} {source : String} {front back : List Char}
    (cut : source.toList = front ++ back) (boundary : d.position.offset = byteLength front) :
    ∃ before inLine rest, Divides source.toList d.position.offset before inLine rest ∧
      (BehindIndent inLine rest →
        let number := Nat.toDigits 10 (1 + before.count '\n')
        let stretch := inLine.dropWhile isIndent
        (∃ shown blanks, LastLines (d.excerpt source).toList (numbered number shown)
            (pointing number (byteLength stretch)) ∧
          shown ++ blanks = stretch ++ throughNewline rest ∧ ∀ c ∈ blanks, Text.isBlank c = true) ∧
        (byteLength stretch = stretch.length ↔ ∀ c ∈ stretch, c.toNat < 128)) := by
  obtain ⟨before, inLine, rest, divides⟩ := exists_divides front back
  rw [← cut, ← boundary] at divides
  refine ⟨before, inLine, rest, divides, fun behind => ⟨?_, byteLength_eq_length_iff⟩⟩
  obtain ⟨blanks, text, blank⟩ :=
    Text.trimEnd_append_blanks (inLine.dropWhile isIndent ++ throughNewline rest)
  refine ⟨_, blanks, ⟨?_, newline_not_mem_pointing _ _, ?_⟩, text.symm, blank⟩
  · apply newline_not_mem_numbered
    apply newline_not_mem_trimEnd
    exact fun member => divides.oneLine ((List.dropWhile_sublist isIndent).subset member)
  · obtain ⟨above, eq⟩ := toList_excerpt d source
    rw [divides.shown_eq behind, divides.pointer_eq behind] at eq
    exact ⟨above, eq⟩

/-- An indented line with a letter of two bytes in front of a name. -/
def accentedSource : String := String.ofList ['x', '\n', '\t', 'é', ' ', 'y']

def accentedComplaint : Diagnostic := ⟨.unknownVariable "y", ⟨6, "shell"⟩⟩

theorem accented_divides : Divides accentedSource.toList 6 ['x', '\n'] ['\t', 'é', ' '] ['y'] where
  cut := String.toList_ofList
  starts := by
    rintro c last
    cases last
    rfl
  oneLine := by decide
  place := Or.inl ⟨by decide, List.cons_ne_nil _ _⟩

theorem accented_behind : BehindIndent ['\t', 'é', ' '] ['y'] := by
  intro all
  exact absurd (all 'é' (by simp)) (by decide)

/-- Three dashes under two characters. -/
theorem excerpt_arrow_accented :
    accentedSource.toList = ['x', '\n', '\t', 'é', ' '] ++ ['y'] ∧
      accentedComplaint.position.offset = byteLength ['x', '\n', '\t', 'é', ' '] ∧
      LastLines (accentedComplaint.excerpt accentedSource).toList
        "2 | é y".toList "  | ---^".toList := by
  have cut : accentedSource.toList = ['x', '\n', '\t', 'é', ' '] ++ ['y'] := String.toList_ofList
  have boundary : accentedComplaint.position.offset = byteLength ['x', '\n', '\t', 'é', ' '] := by
    decide
  obtain ⟨before, inLine, rest, divides, lines⟩ := excerpt_arrow cut boundary
  obtain ⟨rfl, rfl, rfl⟩ := divides.unique accented_divides
  obtain ⟨⟨shown, blanks, last, text, blank⟩, -⟩ := lines accented_behind
  have whole : shown ++ blanks = ['é', ' ', 'y'] := text
  -- The line ends in a name, so no blanks were cut off.
  have solid : blanks = [] := by
    rcases List.eq_nil_or_concat blanks with none | ⟨front, c, rfl⟩
    · exact none
    · have final : c = 'y' := by simpa using congrArg List.getLast? whole
      have isBlank := blank c (by simp)
      rw [final] at isBlank
      exact absurd isBlank (by decide)
  rw [solid, List.append_nil] at whole
  rw [whole] at last
  exact ⟨cut, boundary, last⟩

/-- The arrow is not under the character in every line: here the two characters in front of it
    have three dashes under them. -/
theorem excerpt_arrow_off : ¬ ∀ (d : Diagnostic) (source : String) (before inLine rest : List Char),
    Divides source.toList d.position.offset before inLine rest → BehindIndent inLine rest →
    ∃ shown, LastLines (d.excerpt source).toList
      (numbered (Nat.toDigits 10 (1 + before.count '\n')) shown)
      (pointing (Nat.toDigits 10 (1 + before.count '\n')) (inLine.dropWhile isIndent).length) := by
  intro under
  obtain ⟨shown, -, -, above, text⟩ :=
    under accentedComplaint accentedSource _ _ _ accented_divides accented_behind
  obtain ⟨before, real⟩ := toList_excerpt accentedComplaint accentedSource
  have lower : (lineAt accentedSource.toList 6).pointer = pointing ['2'] 3 :=
    accented_divides.pointer_eq accented_behind
  rw [text, show accentedComplaint.position.offset = 6 from rfl, lower] at real
  have ends := congrArg (fun text : List Char => text.reverse.take 4) real
  simp [pointing, numbered, List.replicate, isIndent] at ends

end Reckon
