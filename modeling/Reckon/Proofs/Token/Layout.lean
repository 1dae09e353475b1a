/-
  Layout.

  What stands between two tokens says only that they are two.  A text of blanks and closed
  comments is a gap before whatever follows it (`Layout.gap`), and where it is not empty it
  ends the token before it (`Layout.breaks`).  A token alone is cut off a text that breaks
  behind it as what it is (`TokenKind.Spells.lexeme_eq`), so the tokens of a source come
  back from any layout of their texts (`layout_free`).
-/
import Reckon.Proofs.Token.Tiling

namespace Reckon

variable {file : String} {text rest : List Char} {tokens : List Token}

/-! ### Layouts -/

/-- Blanks and comments, each comment closed by the end of its line. -/
inductive Layout : List Char → Prop where
  | nil : Layout []
  | blank {c : Char} {gap : List Char} (isBlank : Text.isBlank c = true) (more : Layout gap) :
    Layout (c :: gap)
  | comment {body gap : List Char} {c : Char} (inside : ∀ d ∈ body, d ≠ '\n' ∧ d ≠ '\r')
    (newline : c = '\n' ∨ c = '\r') (more : Layout gap) : Layout ('#' :: (body ++ c :: gap))

theorem Layout.gap (layout : Layout text) (rest : List Char) : Gap text rest := by
  induction layout with
  | nil => exact .nil rest
  | blank isBlank _ ih => exact .blank isBlank ih
  | @comment body gap c inside newline _ ih =>
    have isBlank : Text.isBlank c = true := by
      rcases newline with rfl | rfl
      · rfl
      · rfl
    refine .comment inside ?_ (.blank isBlank ih)
    intro d first
    cases first
    exact newline

/-- A layout that is not empty ends a word or a number before it. -/
theorem Layout.breaks (layout : Layout text) (nonempty : text ≠ []) (rest : List Char) :
    Breaks (text ++ rest) := by
  intro d first
  cases layout with
  | nil => exact absurd rfl nonempty
  | blank isBlank =>
    cases first
    exact ⟨not_isWordChar_of_isBlank isBlank, (classes_of_isBlank isBlank).2⟩
  | comment =>
    cases first
    exact ⟨rfl, rfl⟩

/-! ### Cutting at a layout -/

theorem Scanned.comment {body : List Char} (scanned : Scanned file ('#' :: (body ++ rest)) tokens)
    (inside : ∀ d ∈ body, d ≠ '\n' ∧ d ≠ '\r') (ends : ∀ d ∈ rest.head?, d = '\n' ∨ d = '\r') :
    Scanned file rest tokens := by
  have all : ∀ d ∈ body, isCommentChar d = true := by
    intro d member
    simpa [isCommentChar] using inside d member
  have stops : ∀ d ∈ rest.head?, isCommentChar d = false := by
    intro d first
    rcases ends d first with rfl | rfl
    · rfl
    · rfl
  have piece : lexeme '#' (body ++ rest) = ⟨none, '#' :: body, rest⟩ := by
    have taken := takeWhile_run all stops
    have dropped := dropWhile_run all stops
    have unfolded : lexeme '#' (body ++ rest) =
      ⟨none, '#' :: (body ++ rest).takeWhile isCommentChar,
        (body ++ rest).dropWhile isCommentChar⟩ := rfl
    rw [unfolded, taken, dropped]
  obtain ⟨offset, rfl⟩ := scanned
  rw [scanFrom, piece]
  exact ⟨_, rfl⟩

/-- A gap makes no token. -/
theorem Scanned.gap (scanned : Scanned file (text ++ rest) tokens) (skipped : Gap text rest) :
    Scanned file rest tokens := by
  induction skipped with
  | nil => exact scanned
  | blank isBlank _ ih => exact ih (scanned.blank isBlank)
  | comment inside ends _ ih =>
    rw [List.cons_append, List.append_assoc] at scanned
    exact ih (scanned.comment inside ends)

theorem IsWord.lexeme_eq (word : IsWord text) (breaks : Breaks rest) :
    ∃ c next, text = c :: next ∧
      lexeme c (next ++ rest) = ⟨some (wordKind text), text, rest⟩ := by
  obtain ⟨c, next, rfl, letter, all⟩ := word
  exact ⟨c, next, rfl, lexeme_word letter (List.all_eq_true.2 all) breaks⟩

/-- The text of a token is cut off what breaks behind it as what it is. -/
theorem TokenKind.Spells.lexeme_eq {kind : TokenKind} (spells : kind.Spells text)
    (breaks : Breaks rest) :
    ∃ c next, text = c :: next ∧ lexeme c (next ++ rest) = ⟨some kind, text, rest⟩ := by
  obtain ⟨classed, defKeyword, externKeyword⟩ := spells
  cases kind with
  | identifier =>
    have noDef : text ≠ "def".toList := mt defKeyword.2 TokenKind.noConfusion
    have noExtern : text ≠ "extern".toList := mt externKeyword.2 TokenKind.noConfusion
    have word : wordKind text = .identifier := by
      rw [wordKind, if_neg noDef, if_neg noExtern]
    rw [← word]
    exact IsWord.lexeme_eq classed breaks
  | defKeyword =>
    have word : wordKind text = .defKeyword := by
      rw [wordKind, if_pos (defKeyword.1 rfl)]
    rw [← word]
    exact IsWord.lexeme_eq classed breaks
  | externKeyword =>
    have noDef : text ≠ "def".toList := mt defKeyword.2 TokenKind.noConfusion
    have word : wordKind text = .externKeyword := by
      rw [wordKind, if_neg noDef, if_pos (externKeyword.1 rfl)]
    rw [← word]
    exact IsWord.lexeme_eq classed breaks
  | number =>
    obtain ⟨c, next, rfl⟩ := List.exists_cons_of_ne_nil classed.1
    obtain ⟨number, digits⟩ := List.forall_mem_cons.1 classed.2
    exact ⟨c, next, rfl, lexeme_number number digits breaks⟩
  | char c =>
    obtain ⟨rfl, symbol⟩ := classed
    exact ⟨c, [], rfl, lexeme_symbol symbol rest⟩
  | eof => exact classed.elim

/-! ### Laying tokens out -/

def Token.content (t : Token) : TokenKind × String := (t.kind, t.text)

/-- The tokens that a source was written with, the end of input left out. -/
def written (tokens : List Token) : List Token := tokens.filter (·.kind ≠ .eof)

/-- The texts of tokens, each with the gap behind it, after a text before the first. -/
def layOut (lead : List Char) : List (Token × List Char) → List Char
  | [] => lead
  | (t, gap) :: others => lead ++ (t.text.toList ++ layOut gap others)

def spaced : List Token → List (Token × List Char)
  | [] => []
  | [t] => [(t, [])]
  | t :: u :: others => (t, [' ']) :: spaced (u :: others)

theorem layOut_lead (lead : List Char) (entries : List (Token × List Char)) :
    layOut lead entries = lead ++ layOut [] entries := by
  cases entries with
  | nil => exact (List.append_nil lead).symm
  | cons entry others => rfl

theorem layOut_spaced (tokens : List Token) :
    layOut [] (spaced tokens) = (" ".intercalate (tokens.map Token.text)).toList := by
  rw [String.toList_intercalate]
  induction tokens using spaced.induct with
  | case1 => rfl
  | case2 t => simp [spaced, layOut]
  | case3 t u others ih =>
    rw [spaced, layOut, layOut_lead, ih]
    simp [List.intercalate_cons_cons]

theorem spaced_fst (tokens : List Token) : (spaced tokens).map Prod.fst = tokens := by
  induction tokens using spaced.induct with
  | case1 => rfl
  | case2 t => rfl
  | case3 t u others ih => rw [spaced, List.map_cons, ih]

/-- Tokens with blanks and closed comments before, between and behind them, and no two of
    them without any. -/
structure LaidOut (tokens : List Token) (lead : List Char) (entries : List (Token × List Char)) :
    Prop where
  tokens : entries.map Prod.fst = tokens
  lead : Layout lead
  gaps : ∀ entry ∈ entries, Layout entry.2
  between : ∀ entry ∈ entries.dropLast, entry.2 ≠ []

def endContent : TokenKind × String := (.eof, "EOF")

theorem breaks_layOut {gap : List Char} {others : List (Token × List Char)} (layout : Layout gap)
    (apart : others ≠ [] → gap ≠ []) : Breaks (layOut gap others) := by
  rw [layOut_lead]
  by_cases empty : gap = []
  · have last : others = [] := Decidable.of_not_not fun more => apart more empty
    rw [empty, last]
    exact breaks_nil
  · exact layout.breaks empty _

theorem Scanned.layOut {entries : List (Token × List Char)}
    (spelled : ∀ entry ∈ entries, entry.1.kind.Spells entry.1.text.toList)
    (gaps : ∀ entry ∈ entries, Layout entry.2)
    (between : ∀ entry ∈ entries.dropLast, entry.2 ≠ []) :
    ∀ lead tokens, Layout lead → Scanned file (layOut lead entries) tokens →
      tokens.map Token.content = entries.map (·.1.content) ++ [endContent] := by
  induction entries with
  | nil =>
    intro lead tokens layout scanned
    have ended : Scanned file [] tokens := by
      apply Scanned.gap _ (layout.gap [])
      rwa [List.append_nil]
    obtain ⟨offset, rfl⟩ := ended
    rw [scanFrom]
    rfl
  | cons entry others ih =>
    obtain ⟨t, gap⟩ := entry
    intro lead tokens layout scanned
    obtain ⟨spells, spelled⟩ := List.forall_mem_cons.1 spelled
    obtain ⟨behind, gaps⟩ := List.forall_mem_cons.1 gaps
    have apart : others ≠ [] → gap ≠ [] := by
      intro more
      apply between (t, gap)
      rw [List.dropLast_cons_of_ne_nil more]
      exact List.mem_cons_self
    have between : ∀ entry ∈ others.dropLast, entry.2 ≠ [] := by
      intro entry member
      apply between entry
      rw [List.dropLast_cons_of_ne_nil (List.ne_nil_of_mem (List.mem_of_mem_dropLast member))]
      exact List.mem_cons_of_mem _ member
    have scanned := scanned.gap (layout.gap _)
    obtain ⟨c, next, text, piece⟩ := spells.lexeme_eq (breaks_layOut behind apart)
    rw [text] at piece scanned
    obtain ⟨read, after, rfl, kind, value, others⟩ := scanned.token piece
    have same : read.content = t.content := by
      rw [← text, String.ofList_toList] at value
      rw [Token.content, kind, value, Token.content]
    rw [List.map_cons, List.map_cons, same, ih spelled gaps between gap after behind others]
    rfl

/-! ### Sources -/

theorem Tiling.spelled {front : List Char} (tiling : Tiling file front text tokens) :
    ∃ others offset, tokens = others ++ [.endAt file offset] ∧
      ∀ t ∈ others, t.kind.Spells t.text.toList := by
  induction tiling with
  | ended => exact ⟨[], _, rfl, nofun⟩
  | token placed _ ih =>
    obtain ⟨others, offset, rfl, spelled⟩ := ih
    refine ⟨_ :: others, offset, rfl, ?_⟩
    exact List.forall_mem_cons.2 ⟨placed.spells, spelled⟩

theorem TokenKind.Spells.not_eof {kind : TokenKind} (spells : kind.Spells text) : kind ≠ .eof := by
  rintro rfl
  exact spells.classed

/-- The tokens of a source are spelled as what they are, and the end of input is last. -/
theorem tokenize_written (source file : String) :
    (∀ t ∈ written (tokenize source file), t.kind.Spells t.text.toList) ∧
      (tokenize source file).map Token.content =
        (written (tokenize source file)).map Token.content ++ [endContent] := by
  have tiling := scanFrom_tiling file 0 source.toList [] [] (.nil _) (apart_nil _) rfl
  obtain ⟨others, offset, eq, spelled⟩ := tiling.spelled
  have kept : written (tokenize source file) = others := by
    have all : ∀ t ∈ others, decide (t.kind ≠ .eof) = true :=
      fun t member => decide_eq_true (spelled t member).not_eof
    rw [tokenize, eq, written, List.filter_append, List.filter_eq_self.2 all]
    exact List.append_nil others
  rw [kept, tokenize, eq, List.map_append]
  exact ⟨spelled, rfl⟩

theorem laidOut_spaced (tokens : List Token) : LaidOut tokens [] (spaced tokens) := by
  have layout : Layout [' '] := .blank rfl .nil
  refine ⟨spaced_fst tokens, .nil, ?_, ?_⟩
  · induction tokens using spaced.induct with
    | case1 => nofun
    | case2 t => exact List.forall_mem_singleton.2 .nil
    | case3 t u others ih => exact List.forall_mem_cons.2 ⟨layout, ih⟩
  · induction tokens using spaced.induct with
    | case1 => nofun
    | case2 t => nofun
    | case3 t u others ih =>
      have more : spaced (u :: others) ≠ [] := by
        cases others with
        | nil => exact List.cons_ne_nil _ _
        | cons v others => exact List.cons_ne_nil _ _
      rw [spaced, List.dropLast_cons_of_ne_nil more]
      exact List.forall_mem_cons.2 ⟨List.cons_ne_nil _ _, ih⟩

/-- The tokens of a source come back, with their kinds and texts, from any layout of their
    texts: with single spaces between them, and with any blanks and closed comments, as long
    as there are some between two tokens. -/
theorem layout_free (source file file' : String) :
    (tokenize (" ".intercalate ((written (tokenize source file)).map Token.text)) file').map
        Token.content = (tokenize source file).map Token.content ∧
      ∀ lead entries, LaidOut (written (tokenize source file)) lead entries →
        (tokenize (String.ofList (layOut lead entries)) file').map Token.content =
          (tokenize source file).map Token.content := by
  obtain ⟨spelled, contents⟩ := tokenize_written source file
  have laid : ∀ lead entries, LaidOut (written (tokenize source file)) lead entries →
      ∀ text, text.toList = layOut lead entries →
        (tokenize text file').map Token.content = (tokenize source file).map Token.content := by
    intro lead entries laidOut text chars
    have scanned := scanned_tokenize text file'
    have spelled : ∀ entry ∈ entries, entry.1.kind.Spells entry.1.text.toList := by
      intro entry member
      apply spelled
      rw [← laidOut.tokens]
      exact List.mem_map_of_mem member
    rw [chars] at scanned
    rw [scanned.layOut spelled laidOut.gaps laidOut.between lead _ laidOut.lead, contents,
      ← laidOut.tokens, List.map_map]
    rfl
  constructor
  · exact laid [] _ (laidOut_spaced _) _ (layOut_spaced _).symm
  · intro lead entries laidOut
    exact laid lead entries laidOut _ String.toList_ofList

/-- Comments that hold quotes, reserved words and more `#`, and blanks beyond ASCII, change
    nothing, and part the number from the name that it stood right behind. -/
theorem layout_free_of_comments :
    (tokenize "# \"def\" #1\n\u3000def#extern\r f\u00A0.5##\ng\u2003#\n" "shell").map
      Token.content = (tokenize "def f.5g" "shell").map Token.content := by
  have tokens : written (tokenize "def f.5g" "shell") =
      [⟨.defKeyword, "def", .within "shell" 0 3⟩, ⟨.identifier, "f", .within "shell" 4 5⟩,
        ⟨.number, ".5", .within "shell" 5 7⟩, ⟨.identifier, "g", .within "shell" 7 8⟩] := by
    decide +kernel
  have closed : ∀ {body gap : List Char} {c : Char}, body.all isCommentChar = true →
      c = '\n' ∨ c = '\r' → Layout gap → Layout ('#' :: (body ++ c :: gap)) := by
    intro body gap c all newline more
    refine .comment (fun d member => ?_) newline more
    simpa [isCommentChar] using List.all_eq_true.1 all d member
  have laidOut : LaidOut (written (tokenize "def f.5g" "shell"))
      ('#' :: (" \"def\" #1".toList ++ '\n' :: ['\u3000']))
      [(⟨.defKeyword, "def", .within "shell" 0 3⟩, '#' :: ("extern".toList ++ '\r' :: [' '])),
        (⟨.identifier, "f", .within "shell" 4 5⟩, ['\u00A0']),
        (⟨.number, ".5", .within "shell" 5 7⟩, '#' :: (['#'] ++ '\n' :: [])),
        (⟨.identifier, "g", .within "shell" 7 8⟩, '\u2003' :: '#' :: ([] ++ '\n' :: []))] := by
    constructor
    · rw [tokens]
      rfl
    · exact closed rfl (.inl rfl) (.blank rfl .nil)
    · simp only [List.forall_mem_cons]
      exact ⟨closed rfl (.inr rfl) (.blank rfl .nil), .blank rfl .nil,
        closed rfl (.inl rfl) .nil, .blank rfl (closed rfl (.inl rfl) .nil), List.forall_mem_nil _⟩
    · simp
  have laid := (layout_free "def f.5g" "shell" "shell").2 _ _ laidOut
  refine Eq.trans (congrArg (fun text => (tokenize text "shell").map Token.content) ?_) laid
  decide +kernel

end Reckon
