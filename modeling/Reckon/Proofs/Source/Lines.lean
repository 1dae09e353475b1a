/-
  Lines of a source.

  A text is cut after every newline (`Lines`).  Looking for an offset among the pieces takes
  whole ones away until one holds the byte there, so the pieces before it and the column in it
  account for the offset, and each of them for one newline.

  A newline is one byte, and no byte of another character is one (`count_bytes`).  So what is
  said of the bytes before an offset holds in the middle of a character too.  The main
  statement is `lineAt_inverts`.
-/
import Mathlib.Data.List.Basic
import Reckon.Source.Line

namespace Reckon

/-! ### Bytes -/

def newlineByte : UInt8 := 10

def bytes (text : List Char) : List UInt8 := text.flatMap String.utf8EncodeChar

@[simp] theorem bytes_nil : bytes [] = [] := rfl

@[simp] theorem bytes_cons (c : Char) (text : List Char) :
    bytes (c :: text) = String.utf8EncodeChar c ++ bytes text := rfl

@[simp] theorem bytes_append (left right : List Char) :
    bytes (left ++ right) = bytes left ++ bytes right :=
  List.flatMap_append

@[simp] theorem length_bytes (text : List Char) : (bytes text).length = byteLength text := by
  induction text with
  | nil => rfl
  | cons c rest ih => simp [ih]

theorem newlineByte_eq_ofNat_iff {n : Nat} (small : n < 256) :
    newlineByte = UInt8.ofNat n ↔ n = 10 := by
  rw [← UInt8.toNat_inj, UInt8.toNat_ofNat', Nat.mod_eq_of_lt small]
  exact eq_comm

theorem eq_newline_iff (c : Char) : c = '\n' ↔ c.val.toNat = 10 := by
  rw [Char.ext_iff, ← UInt32.toNat_inj]
  rfl

/-- A newline is one byte, which no other character has. -/
theorem count_utf8EncodeChar (c : Char) :
    (String.utf8EncodeChar c).count newlineByte = if c = '\n' then 1 else 0 := by
  simp only [eq_newline_iff, String.utf8EncodeChar]
  generalize c.val.toNat = n
  by_cases ascii : n ≤ 127
  · have same := newlineByte_eq_ofNat_iff (show n < 256 by omega)
    rw [if_pos ascii, List.count_singleton]
    simp only [beq_iff_eq, eq_comm (a := UInt8.ofNat n), same]
  · -- All bytes of the longer forms are at least 128.
    have high : ∀ m, 128 ≤ m → m < 256 → newlineByte ≠ UInt8.ofNat m := by
      intro m low small eq
      have ten := (newlineByte_eq_ofNat_iff small).1 eq
      omega
    have other : n ≠ 10 := by omega
    have last := high (n % 64 + 128) (by omega) (by omega)
    have third := high (n / 64 % 64 + 128) (by omega) (by omega)
    have second := high (n / 4096 % 64 + 128) (by omega) (by omega)
    have leadsTwo := high (n / 64 % 32 + 192) (by omega) (by omega)
    have leadsThree := high (n / 4096 % 16 + 224) (by omega) (by omega)
    have leadsFour := high (n / 262144 % 8 + 240) (by omega) (by omega)
    rw [if_neg ascii, if_neg other, List.count_eq_zero]
    split
    · simp only [List.mem_cons, List.not_mem_nil, or_false, not_or]
      exact ⟨leadsTwo, last⟩
    split
    · simp only [List.mem_cons, List.not_mem_nil, or_false, not_or]
      exact ⟨leadsThree, third, last⟩
    · simp only [List.mem_cons, List.not_mem_nil, or_false, not_or]
      exact ⟨leadsFour, second, third, last⟩

theorem count_bytes (text : List Char) : (bytes text).count newlineByte = text.count '\n' := by
  induction text with
  | nil => rfl
  | cons c rest ih =>
    rw [bytes_cons, List.count_append, count_utf8EncodeChar, ih, List.count_cons, Nat.add_comm]
    simp

theorem newlineByte_mem_bytes {text : List Char} :
    newlineByte ∈ bytes text ↔ '\n' ∈ text := by
  rw [← List.count_pos_iff, ← List.count_pos_iff, count_bytes]

/-! ### Lines -/

/-- The text stands before the beginning of a line: it is empty or ends in a newline. -/
def EndsLine (text : List Char) : Prop := ∀ c ∈ text.getLast?, c = '\n'

def ClosedLine (text : List Char) : Prop := ∃ body, '\n' ∉ body ∧ text = body ++ ['\n']

/-- The lines that a text consists of, the last of which may lack its newline. -/
inductive Lines : List Char → List (List Char) → Prop where
  | empty : Lines [] []
  | last {text : List Char} (begun : text ≠ []) (inLine : '\n' ∉ text) : Lines text [text]
  | next {line rest : List Char} {lines : List (List Char)} (closed : ClosedLine line)
    (more : Lines rest lines) : Lines (line ++ rest) (line :: lines)

/-- The characters up to the first newline and that newline, or all if there is none. -/
def throughNewline : List Char → List Char
  | [] => []
  | c :: rest => if c = '\n' then [c] else c :: throughNewline rest

variable {text front before line rest : List Char} {lines : List (List Char)} {offset : Nat}

theorem throughNewline_append (inLine : '\n' ∉ text) (rest : List Char) :
    throughNewline (text ++ rest) = text ++ throughNewline rest := by
  induction text with
  | nil => rfl
  | cons c text ih =>
    rw [List.mem_cons, not_or] at inLine
    rw [List.cons_append, throughNewline, if_neg (Ne.symm inLine.1), ih inLine.2,
      List.cons_append]

theorem throughNewline_closed (closed : ClosedLine line) (rest : List Char) :
    throughNewline (line ++ rest) = line := by
  obtain ⟨body, inLine, rfl⟩ := closed
  rw [List.append_assoc, throughNewline_append inLine]
  rfl

theorem endsLine_nil : EndsLine [] := nofun

theorem lines_pieces (text : List Char) : Lines text (pieces text) := by
  induction text with
  | nil => exact .empty
  | cons c rest ih =>
    unfold pieces
    split
    · rename_i newline
      subst newline
      exact .next ⟨[], List.not_mem_nil, rfl⟩ ih
    · rename_i other
      generalize pieces rest = lines at ih
      cases ih with
      | empty => exact .last (List.cons_ne_nil c []) (by simpa using Ne.symm other)
      | last begun inLine =>
        exact .last (List.cons_ne_nil c rest) (by simpa [inLine] using Ne.symm other)
      | next closed more =>
        obtain ⟨body, inLine, rfl⟩ := closed
        exact .next ⟨c :: body, by simpa [inLine] using Ne.symm other, rfl⟩ more

theorem Lines.flatten (cut : Lines text lines) : lines.flatten = text := by
  induction cut with
  | empty => rfl
  | last => simp
  | next closed more ih => rw [List.flatten_cons, ih]

/-- All lines but the last are closed, and what is left of the lines is lines again. -/
theorem Lines.behind {front back : List (List Char)} (cut : Lines text (front ++ line :: back)) :
    (∀ l ∈ front, ClosedLine l) ∧ Lines (line ++ back.flatten) (line :: back) := by
  induction front generalizing text with
  | nil =>
    refine ⟨nofun, ?_⟩
    have whole := cut.flatten
    rw [List.nil_append, List.flatten_cons] at whole
    rwa [whole]
  | cons first front ih =>
    generalize eq : first :: front ++ line :: back = all at cut
    cases cut with
    | empty => cases eq
    | last begun inLine => simp at eq
    | next closed more =>
      rw [List.cons_append] at eq
      cases eq
      obtain ⟨others, rest⟩ := ih more
      exact ⟨List.forall_mem_cons.2 ⟨closed, others⟩, rest⟩

theorem count_closed {front : List (List Char)} (closed : ∀ l ∈ front, ClosedLine l) :
    front.flatten.count '\n' = front.length := by
  induction front with
  | nil => rfl
  | cons first front ih =>
    obtain ⟨⟨body, inLine, rfl⟩, others⟩ := List.forall_mem_cons.1 closed
    have none := List.count_eq_zero.2 inLine
    simp [none, ih others]

theorem endsLine_closed {front : List (List Char)} (closed : ∀ l ∈ front, ClosedLine l) :
    EndsLine front.flatten := by
  intro c last
  rcases List.eq_nil_or_concat front with rfl | ⟨others, line, rfl⟩
  · cases last
  · obtain ⟨body, -, rfl⟩ := closed line (by simp)
    simpa [eq_comm] using last

/-! ### Looking for an offset -/

/-- A byte of a text is one of a piece. -/
theorem exists_piece {lines : List (List Char)} {offset : Nat}
    (within : offset < byteLength lines.flatten) :
    ∃ front line back column, lines = front ++ line :: back ∧
      offset = byteLength front.flatten + column ∧ column < byteLength line := by
  induction lines generalizing offset with
  | nil => cases within
  | cons first lines ih =>
    by_cases here : offset < byteLength first
    · exact ⟨[], first, lines, offset, rfl, (Nat.zero_add offset).symm, here⟩
    · rw [List.flatten_cons, byteLength_append] at within
      obtain ⟨front, line, back, column, rfl, place, lt⟩ :=
        ih (show offset - byteLength first < byteLength lines.flatten by omega)
      refine ⟨first :: front, line, back, column, rfl, ?_, lt⟩
      rw [List.flatten_cons, byteLength_append]
      omega

theorem findLine_at {front back : List (List Char)} {line : List Char} {column : Nat}
    (last : Line) (number : Nat) (within : column < byteLength line) :
    findLine last number (byteLength front.flatten + column) (front ++ line :: back) =
      ⟨number + front.length, line, column⟩ := by
  induction front generalizing last number with
  | nil => simp [findLine, within]
  | cons first front ih =>
    have length : byteLength (first :: front).flatten + column =
        byteLength first + (byteLength front.flatten + column) := by
      rw [List.flatten_cons, byteLength_append, Nat.add_assoc]
    rw [List.cons_append, findLine, length, if_neg (Nat.not_lt.2 (Nat.le_add_right _ _)),
      Nat.add_sub_cancel_left, ih, List.length_cons, Nat.add_assoc, Nat.add_comm 1]

theorem findLine_past {front : List (List Char)} {line : List Char} {offset : Nat} (last : Line)
    (number : Nat) (past : byteLength (front ++ [line]).flatten ≤ offset) :
    findLine last number offset (front ++ [line]) =
      ⟨number + front.length, line, byteLength (withoutNewline line)⟩ := by
  induction front generalizing last number offset with
  | nil =>
    have beyond : ¬ offset < byteLength line := by simpa using past
    simp [findLine, beyond]
  | cons first front ih =>
    rw [List.cons_append, List.flatten_cons, byteLength_append] at past
    have beyond : ¬ offset < byteLength first := by omega
    rw [List.cons_append, findLine, if_neg beyond, ih _ _ (by omega), List.length_cons,
      Nat.add_assoc, Nat.add_comm 1]

/-! ### The beginning of a line -/

/-- The offset just behind the last newline before `offset`, or zero if there is none. -/
def lineStart (source : List Char) (offset : Nat) : Nat :=
  offset - (((bytes source).take offset).reverse.takeWhile (· != newlineByte)).length

/-- Whole lines and the first bytes of another one come before an offset in it. -/
theorem lineStart_eq {source : List Char} {others : List UInt8} (starts : EndsLine before)
    (inLine : newlineByte ∉ others)
    (taken : (bytes source).take (byteLength before + others.length) = bytes before ++ others) :
    lineStart source (byteLength before + others.length) = byteLength before := by
  have all : ∀ b ∈ others.reverse, (b != newlineByte) = true := by
    intro b member
    rw [bne_iff_ne]
    rintro rfl
    exact inLine (List.mem_reverse.1 member)
  have stops : (bytes before).reverse.takeWhile (· != newlineByte) = [] := by
    rcases List.eq_nil_or_concat before with rfl | ⟨more, c, rfl⟩
    · rfl
    · rw [starts c (by simp)]
      simp [bytes, newlineByte, String.utf8EncodeChar]
  rw [lineStart, taken, List.reverse_append, List.takeWhile_append_of_pos all, stops,
    List.append_nil, List.length_reverse, Nat.add_sub_cancel]

/-! ### The line of an offset -/

theorem Lines.first {back : List (List Char)} (cut : Lines text (line :: back)) :
    ClosedLine line ∨ line ≠ [] ∧ '\n' ∉ line ∧ back = [] := by
  cases cut with
  | last begun inLine => exact Or.inr ⟨begun, inLine, rfl⟩
  | next closed more => exact Or.inl closed

/-- No newline comes before a column of a line. -/
theorem newlineByte_not_mem_take {back : List (List Char)} {column : Nat}
    (cut : Lines text (line :: back)) (within : column < byteLength line) :
    newlineByte ∉ (bytes line).take column := by
  intro among
  rcases cut.first with ⟨body, inLine, rfl⟩ | ⟨-, inLine, -⟩
  · have newline : byteLength (body ++ ['\n']) = byteLength body + 1 := byteLength_append ..
    have short : column ≤ (bytes body).length := by
      rw [length_bytes]
      omega
    rw [bytes_append, List.take_append_of_le_length short] at among
    exact inLine (newlineByte_mem_bytes.1 (List.mem_of_mem_take among))
  · exact inLine (newlineByte_mem_bytes.1 (List.mem_of_mem_take among))

/-- The line that holds the byte at an offset: the number counts the newlines before it and
    the column the bytes from the last of them on, and the text reaches from there through the
    next newline. -/
structure Line.Holds (l : Line) (source : List Char) (offset : Nat) : Prop where
  number : l.number = 1 + ((bytes source).take offset).count newlineByte
  column : l.column = offset - lineStart source offset
  text : ∃ before rest, source = before ++ rest ∧ byteLength before = lineStart source offset ∧
    l.text = throughNewline rest
  piece : (pieces source)[l.number - 1]? = some l.text
  place : byteLength ((pieces source).take (l.number - 1)).flatten + l.column = offset

/-- The line that is meant at the end of a source: the last piece, with the column before its
    newline, or an empty line where there is no piece. -/
inductive Line.Ends (source : List Char) : Line → Prop where
  | nowhere (empty : source = []) : Ends source ⟨1, [], 0⟩
  | last {front : List (List Char)} {line body : List Char} (cut : pieces source = front ++ [line])
    (begun : line ≠ []) (inLine : '\n' ∉ body) (text : line = body ∨ line = body ++ ['\n']) :
    Ends source ⟨front.length + 1, line, byteLength body⟩

theorem holds_of_cut {source : List Char} {front back : List (List Char)} {column : Nat}
    (cut : pieces source = front ++ line :: back)
    (place : offset = byteLength front.flatten + column) (within : column < byteLength line) :
    Line.Holds ⟨1 + front.length, line, column⟩ source offset := by
  have lines := lines_pieces source
  have whole := lines.flatten
  rw [cut] at lines
  rw [cut, List.flatten_append, List.flatten_cons] at whole
  obtain ⟨closed, here⟩ := lines.behind
  have starts := endsLine_closed closed
  have inLine := newlineByte_not_mem_take here within
  have length : ((bytes line).take column).length = column := by
    rw [List.length_take, length_bytes, Nat.min_eq_left (Nat.le_of_lt within)]
  have taken : (bytes source).take offset = bytes front.flatten ++ (bytes line).take column := by
    have short : column ≤ (bytes line).length := by
      rw [length_bytes]
      exact Nat.le_of_lt within
    rw [← whole, place, bytes_append, bytes_append, ← length_bytes, List.take_length_add_append,
      List.take_append_of_le_length short]
  have start : lineStart source offset = byteLength front.flatten := by
    have eq : lineStart source (byteLength front.flatten + _) = _ :=
      lineStart_eq starts inLine (by rw [length, ← place, taken])
    rwa [length, ← place] at eq
  refine ⟨?_, ?_, ⟨front.flatten, line ++ back.flatten, whole.symm, start.symm, ?_⟩, ?_, ?_⟩
  · rw [taken, List.count_append, count_bytes, count_closed closed, List.count_eq_zero.2 inLine,
      Nat.add_zero]
  · rw [start, place, Nat.add_sub_cancel_left]
  · rcases here.first with ended | ⟨-, none, rfl⟩
    · exact (throughNewline_closed ended _).symm
    · exact ((throughNewline_append none []).trans (List.append_nil line)).symm
  · simp [cut]
  · rw [place, Nat.add_sub_cancel_left, cut, List.take_left]

theorem holds_lineAt {source : List Char} (within : offset < byteLength source) :
    (lineAt source offset).Holds source offset := by
  rw [← (lines_pieces source).flatten] at within
  obtain ⟨front, line, back, column, cut, place, lt⟩ := exists_piece within
  rw [lineAt, cut, place, findLine_at _ 1 lt]
  exact holds_of_cut cut rfl lt

theorem withoutNewline_of_not_mem (inLine : '\n' ∉ text) : withoutNewline text = text := by
  rw [withoutNewline, List.filter_eq_self]
  intro c member
  simpa using fun eq : c = '\n' => inLine (eq ▸ member)

theorem ends_lineAt {source : List Char} (past : byteLength source ≤ offset) :
    Line.Ends source (lineAt source offset) := by
  have lines := lines_pieces source
  have whole := lines.flatten
  rw [← whole] at past
  rcases List.eq_nil_or_concat (pieces source) with none | ⟨front, line, cut⟩
  · rw [lineAt, none, findLine]
    rw [none] at whole
    exact .nowhere whole.symm
  · rw [List.concat_eq_append] at cut
    rw [cut] at lines past
    rw [lineAt, cut, findLine_past _ 1 past, Nat.add_comm 1]
    rcases lines.behind.2.first with ⟨body, inLine, rfl⟩ | ⟨begun, inLine, -⟩
    · have body_eq : withoutNewline (body ++ ['\n']) = body := by
        rw [withoutNewline, List.filter_append]
        exact (List.append_nil _).trans (withoutNewline_of_not_mem inLine)
      rw [body_eq]
      exact .last cut (by simp) inLine (Or.inr rfl)
    · rw [withoutNewline_of_not_mem inLine]
      exact .last cut begun inLine (Or.inl rfl)

/-! ### The line of a place -/

theorem pieces_append (starts : EndsLine before) (rest : List Char) :
    pieces (before ++ rest) = pieces before ++ pieces rest := by
  induction before with
  | nil => rfl
  | cons c before ih =>
    rw [List.cons_append, pieces, pieces]
    split
    · rename_i newline
      by_cases alone : before = []
      · rw [alone]
        rfl
      · rw [ih fun d last => starts d (by rwa [List.getLast?_cons_of_ne_nil alone]),
          List.cons_append]
    · rename_i other
      have alone : before ≠ [] := by
        rintro rfl
        exact other (starts c rfl)
      rw [ih fun d last => starts d (by rwa [List.getLast?_cons_of_ne_nil alone])]
      cases eq : pieces before with
      | nil =>
        have whole := (lines_pieces before).flatten
        rw [eq] at whole
        exact absurd whole.symm alone
      | cons piece more => rfl

/-- The first piece of a text. -/
theorem pieces_eq_cons (begun : text ≠ []) : ∃ more, pieces text = throughNewline text :: more := by
  have lines := lines_pieces text
  generalize pieces text = cut at lines
  cases lines with
  | empty => exact absurd rfl begun
  | last _ inLine =>
    have through := throughNewline_append inLine []
    rw [List.append_nil, throughNewline, List.append_nil] at through
    exact ⟨[], by rw [through]⟩
  | next closed more => exact ⟨_, by rw [throughNewline_closed closed]⟩

theorem length_pieces (starts : EndsLine before) : (pieces before).length = before.count '\n' := by
  obtain ⟨more, cut⟩ := pieces_eq_cons (List.cons_ne_nil 'x' [])
  have lines := lines_pieces (before ++ ['x'])
  rw [pieces_append starts, cut] at lines
  have counted := count_closed lines.behind.1
  rw [(lines_pieces before).flatten] at counted
  exact counted.symm

/-- The line of a place between two characters of it. -/
theorem lineAt_inside (starts : EndsLine before) (inLine : '\n' ∉ line) (more : rest ≠ []) :
    lineAt (before ++ (line ++ rest)) (byteLength (before ++ line)) =
      ⟨1 + before.count '\n', line ++ throughNewline rest, byteLength line⟩ := by
  have begun : line ++ rest ≠ [] := by simp [more]
  obtain ⟨others, cut⟩ := pieces_eq_cons begun
  obtain ⟨c, rest, rfl⟩ := List.exists_cons_of_ne_nil more
  have within : byteLength line < byteLength (throughNewline (line ++ c :: rest)) := by
    have pos := c.utf8Size_pos
    rw [throughNewline_append inLine, byteLength_append, throughNewline]
    split <;> simp <;> omega
  have found : findLine ⟨1, [], 0⟩ 1 (byteLength (pieces before).flatten + byteLength line)
      (pieces before ++ _ :: others) = _ := findLine_at ⟨1, [], 0⟩ 1 within
  rw [(lines_pieces before).flatten] at found
  rw [lineAt, pieces_append starts, cut, byteLength_append, found, length_pieces starts,
    throughNewline_append inLine]

theorem pieces_last (inLine : '\n' ∉ line) (ends : rest = [] ∨ rest = ['\n'])
    (begun : line ++ rest ≠ []) : pieces (line ++ rest) = [line ++ rest] := by
  induction line with
  | nil =>
    rcases ends with rfl | rfl
    · exact absurd rfl begun
    · rfl
  | cons c line ih =>
    rw [List.mem_cons, not_or] at inLine
    rw [List.cons_append, pieces, if_neg (Ne.symm inLine.1)]
    by_cases alone : line ++ rest = []
    · rw [alone]
      rfl
    · rw [ih inLine.2 alone]

/-- The line that is meant behind the end of a source. -/
theorem lineAt_end (starts : EndsLine before) (inLine : '\n' ∉ line)
    (ends : rest = [] ∨ rest = ['\n']) (begun : line ++ rest = [] → before = [])
    (past : byteLength (before ++ (line ++ rest)) ≤ offset) :
    lineAt (before ++ (line ++ rest)) offset =
      ⟨1 + before.count '\n', line ++ rest, byteLength line⟩ := by
  by_cases alone : line ++ rest = []
  · obtain ⟨rfl, rfl⟩ := List.append_eq_nil_iff.1 alone
    rw [begun alone]
    rfl
  have body : withoutNewline (line ++ rest) = line := by
    have without := withoutNewline_of_not_mem inLine
    rw [withoutNewline] at without
    rw [withoutNewline, List.filter_append, without]
    rcases ends with rfl | rfl <;> exact List.append_nil line
  have cut : pieces (before ++ (line ++ rest)) = pieces before ++ [line ++ rest] := by
    rw [pieces_append starts, pieces_last inLine ends alone]
  have whole := (lines_pieces (before ++ (line ++ rest))).flatten
  rw [cut] at whole
  rw [lineAt, cut, findLine_past _ 1 (by rwa [whole]), length_pieces starts, body]

/-- The pieces of a source are its lines.  The line of an offset is the one that holds the byte
    there, and at the end of the source and behind it the last one. -/
theorem lineAt_inverts (source : List Char) (offset : Nat) :
    Lines source (pieces source) ∧
      if offset < byteLength source then (lineAt source offset).Holds source offset
      else Line.Ends source (lineAt source offset) := by
  refine ⟨lines_pieces source, ?_⟩
  split
  · rename_i within
    exact holds_lineAt within
  · rename_i past
    exact ends_lineAt (Nat.not_lt.1 past)

/-- In the middle of a character the line is still the one that this stands in. -/
example : lineAt "a\n\n xé".toList 6 = ⟨3, " xé".toList, 3⟩ := by decide

end Reckon
