/-
  Tokens tile their text.

  Nothing stands between the tokens of a text but blanks and complete comments (`Gap`), and
  every token is as long as its class allows, on either side (`Token.Placed`).  `Tiling` puts
  the two together: a text is a gap, a token and so on, up to the end of input.

  A gap that stands before a token ends in a blank, for the end of a line that closes a
  comment is one itself.  That is why no number could begin earlier.  A word is also kept from
  the digits of a number before it: where the scanner goes on, it is never in the middle of a
  word (`Apart`).  The main statement is `tokens_tile`.
-/
import Reckon.Proofs.Token.Cutting
import Reckon.Proofs.Token.Placing

namespace Reckon

/-! ### Gaps -/

/-- Text that makes no token where `rest` follows it: blanks and complete comments.  A
    comment runs from `#` up to the next end of a line or the end of the text. -/
inductive Gap : List Char → List Char → Prop where
  | nil (rest : List Char) : Gap [] rest
  | blank {c : Char} {gap rest : List Char} (isBlank : Text.isBlank c = true)
    (more : Gap gap rest) : Gap (c :: gap) rest
  | comment {body gap rest : List Char} (inside : ∀ c ∈ body, c ≠ '\n' ∧ c ≠ '\r')
    (ends : ∀ c ∈ (gap ++ rest).head?, c = '\n' ∨ c = '\r') (more : Gap gap rest) :
    Gap ('#' :: (body ++ gap)) rest

namespace Gap

variable {gap left right rest : List Char}

theorem append (first : Gap left (right ++ rest)) (second : Gap right rest) :
    Gap (left ++ right) rest := by
  generalize follows : right ++ rest = next at first
  induction first with
  | nil => exact second
  | blank isBlank _ ih => exact .blank isBlank (ih follows)
  | @comment body gap next inside ends _ ih =>
    subst follows
    rw [List.cons_append, List.append_assoc]
    refine .comment inside ?_ (ih rfl)
    rwa [List.append_assoc]

theorem of_blanks (blanks : ∀ c ∈ gap, Text.isBlank c = true) (rest : List Char) :
    Gap gap rest := by
  induction gap with
  | nil => exact .nil rest
  | cons c gap ih =>
    have more := ih fun d member => blanks d (List.mem_cons_of_mem c member)
    exact .blank (blanks c List.mem_cons_self) more

/-- Before a character that ends no line, a gap ends in a blank. -/
theorem exists_blank (skipped : Gap gap rest) {d : Char} (next : rest.head? = some d)
    (inLine : d ≠ '\n' ∧ d ≠ '\r') (suffix : left <:+ gap) (nonempty : left ≠ []) :
    ∃ c ∈ left, Text.isBlank c = true := by
  induction skipped generalizing left with
  | nil => exact absurd (List.suffix_nil.1 suffix) nonempty
  | @blank c gap rest isBlank _ ih =>
    rcases List.suffix_cons_iff.1 suffix with rfl | later
    · exact ⟨c, List.mem_cons_self, isBlank⟩
    · exact ih next later nonempty
  | @comment body gap rest inside ends _ ih =>
    by_cases closed : gap = []
    · -- The comment would go on over the next character.
      subst closed
      rcases ends d next with rfl | rfl
      · exact absurd rfl inLine.1
      · exact absurd rfl inLine.2
    · have behind : gap <:+ '#' :: (body ++ gap) :=
        (List.suffix_append body gap).trans (List.suffix_cons '#' _)
      rcases List.suffix_or_suffix_of_suffix suffix behind with within | longer
      · exact ih next within nonempty
      · obtain ⟨c, member, isBlank⟩ := ih next List.suffix_rfl closed
        exact ⟨c, longer.subset member, isBlank⟩

end Gap

/-! ### Classes of tokens -/

def IsWord (text : List Char) : Prop :=
  ∃ c rest, text = c :: rest ∧ isLetter c = true ∧ ∀ d ∈ rest, isWordChar d = true

def IsNumeral (text : List Char) : Prop := text ≠ [] ∧ ∀ c ∈ text, isNumberChar c = true

namespace TokenKind

/-- The texts that tokens of a kind are cut from; the reserved words are words. -/
def Class : TokenKind → List Char → Prop
  | .identifier | .defKeyword | .externKeyword => IsWord
  | .number => IsNumeral
  | .char c => fun text => text = [c] ∧ isSymbol c = true
  | .eof => fun _ => False

def continues : TokenKind → Char → Bool
  | .identifier | .defKeyword | .externKeyword => isWordChar
  | .number => isNumberChar
  | .char _ | .eof => fun _ => false

end TokenKind

theorem IsWord.all {text : List Char} (word : IsWord text) :
    ∀ c ∈ text, isWordChar c = true := by
  obtain ⟨c, rest, rfl, letter, more⟩ := word
  intro d member
  rcases List.mem_cons.1 member with rfl | later
  · exact isWordChar_of_isLetter letter
  · exact more d later

theorem IsWord.ne_nil {text : List Char} (word : IsWord text) : text ≠ [] := by
  obtain ⟨c, rest, rfl, -, -⟩ := word
  exact List.cons_ne_nil c rest

theorem not_isWordChar_of_isBlank {c : Char} (blank : Text.isBlank c = true) :
    isWordChar c = false := by
  obtain ⟨noLetter, noNumber⟩ := classes_of_isBlank blank
  rw [isLetter] at noLetter
  rw [isNumberChar, Bool.or_eq_false_iff] at noNumber
  rw [isWordChar, Char.isAlphanum, noLetter, noNumber.1, Bool.or_false]

namespace TokenKind

variable {kind : TokenKind} {text left right : List Char}

theorem Class.ne_nil (classed : kind.Class text) : text ≠ [] := by
  cases kind with
  | identifier | defKeyword | externKeyword => exact IsWord.ne_nil classed
  | number => exact classed.1
  | char c =>
    rw [classed.1]
    exact List.cons_ne_nil c []
  | eof => exact classed.elim

/-- After its first character a token goes on with what it goes on with. -/
theorem Class.continues (classed : kind.Class (left ++ right)) (begun : left ≠ []) :
    ∀ c ∈ right, kind.continues c = true := by
  intro c member
  cases kind with
  | identifier | defKeyword | externKeyword =>
    exact IsWord.all classed c (List.mem_append_right left member)
  | number => exact classed.2 c (List.mem_append_right left member)
  | char d =>
    have length := congrArg List.length classed.1
    have pos := List.length_pos_iff.2 begun
    have pos' := List.length_pos_of_mem member
    simp only [List.length_append, List.length_singleton] at length
    omega
  | eof => exact classed.elim

/-- No token holds a blank. -/
theorem Class.not_blank (classed : kind.Class text) : ∀ c ∈ text, Text.isBlank c = false := by
  intro c member
  apply Bool.eq_false_iff.2
  intro blank
  obtain ⟨-, noNumber⟩ := classes_of_isBlank blank
  have noWord := not_isWordChar_of_isBlank blank
  cases kind with
  | identifier | defKeyword | externKeyword =>
    exact Bool.eq_false_iff.1 noWord (IsWord.all classed c member)
  | number => exact Bool.eq_false_iff.1 noNumber (classed.2 c member)
  | char d =>
    obtain ⟨rfl, symbol⟩ := classed
    rw [List.mem_singleton.1 member] at blank
    simp [isSymbol, blank] at symbol
  | eof => exact classed.elim

/-- A token begins with no end of a line. -/
theorem Class.inLine (classed : kind.Class text) {c : Char} (first : text.head? = some c) :
    c ≠ '\n' ∧ c ≠ '\r' := by
  have notBlank := classed.not_blank c (List.mem_of_mem_head? first)
  constructor
  · rintro rfl
    cases notBlank
  · rintro rfl
    cases notBlank

end TokenKind

/-! ### Between the words -/

/-- The text before is not in the middle of a word: no word that it ends in goes on. -/
def Apart (front rest : List Char) : Prop :=
  ∀ word, word <:+ front → IsWord word → ∀ c ∈ rest.head?, isWordChar c = false

variable {file : String} {c : Char} {next front gap text rest : List Char} {kind : TokenKind}

theorem apart_nil (rest : List Char) : Apart [] rest := by
  intro word suffix isWord
  exact absurd (List.suffix_nil.1 suffix) isWord.ne_nil

theorem Gap.apart (skipped : Gap gap rest) (apart : Apart front (gap ++ rest)) :
    Apart (front ++ gap) rest := by
  intro word suffix isWord d next
  by_cases none : gap = []
  · subst none
    rw [List.append_nil] at suffix
    exact apart word suffix isWord d next
  apply Bool.eq_false_iff.2
  intro wordChar
  have inLine : d ≠ '\n' ∧ d ≠ '\r' := by
    constructor
    · rintro rfl
      cases wordChar
    · rintro rfl
      cases wordChar
  -- The blank that ends the gap is no character of a word.
  have blank : ∃ e ∈ word, Text.isBlank e = true := by
    rcases List.suffix_or_suffix_of_suffix suffix (List.suffix_append front gap) with
      within | longer
    · exact skipped.exists_blank next inLine within isWord.ne_nil
    · obtain ⟨e, member, isBlank⟩ := skipped.exists_blank next inLine List.suffix_rfl none
      exact ⟨e, longer.subset member, isBlank⟩
  obtain ⟨e, member, isBlank⟩ := blank
  exact Bool.eq_false_iff.1 (not_isWordChar_of_isBlank isBlank) (isWord.all e member)

/-- Behind a token that nothing goes on with, no word is cut in two. -/
theorem TokenKind.Class.apart (classed : kind.Class text)
    (stops : ∀ c ∈ rest.head?, kind.continues c = false) (apart : Apart front (text ++ rest)) :
    Apart (front ++ text) rest := by
  intro word suffix isWord d next
  have split := List.suffix_or_suffix_of_suffix suffix (List.suffix_append front text)
  cases kind with
  | identifier | defKeyword | externKeyword => exact stops d next
  | number =>
    -- A word that ended in the number would begin before it, and go on with its digits.
    rcases split with within | ⟨before, rfl⟩
    · obtain ⟨c, more, rfl, letter, -⟩ := isWord
      have number := classed.2 c (within.subset List.mem_cons_self)
      rw [not_isLetter_of_isNumberChar number] at letter
      cases letter
    · obtain ⟨c, digits, rfl⟩ := List.exists_cons_of_ne_nil classed.1
      obtain ⟨e, more, eq, letter, all⟩ := isWord
      cases before with
      | nil =>
        cases eq
        rw [not_isLetter_of_isNumberChar (classed.2 c List.mem_cons_self)] at letter
        cases letter
      | cons f before =>
        obtain ⟨rfl, rfl⟩ := List.cons.inj eq
        have begun := ((List.suffix_append_inj_of_length_eq rfl).1 suffix).1
        have inside : ∀ g ∈ before ++ c :: digits, isWordChar g = true := all
        have word : IsWord (f :: before) := by
          refine ⟨f, before, rfl, letter, fun g member => ?_⟩
          exact inside g (List.mem_append_left _ member)
        have goesOn := inside c (List.mem_append_right before List.mem_cons_self)
        rw [apart _ begun word c rfl] at goesOn
        cases goesOn
  | char c =>
    obtain ⟨rfl, symbol⟩ := classed
    have member : c ∈ word := by
      rcases split with within | longer
      · obtain ⟨d, more, rfl, -, -⟩ := isWord
        have same := List.mem_singleton.1 (within.subset List.mem_cons_self)
        rw [same]
        exact List.mem_cons_self
      · exact longer.subset (List.mem_singleton_self c)
    have wordChar := isWord.all c member
    simp [isSymbol, wordChar] at symbol
  | eof => exact classed.elim

/-! ### Pieces -/

/-- The text is of the class of the kind, and the kind is that of a reserved word exactly if
    the text is that word. -/
structure TokenKind.Spells (kind : TokenKind) (text : List Char) : Prop where
  classed : kind.Class text
  defKeyword : kind = .defKeyword ↔ text = "def".toList
  externKeyword : kind = .externKeyword ↔ text = "extern".toList

theorem spells_wordKind {word : List Char} (isWord : IsWord word) :
    (wordKind word).Spells word ∧ (wordKind word).Class = IsWord ∧
      (wordKind word).continues = isWordChar := by
  unfold wordKind
  by_cases isDef : word = "def".toList
  · rw [if_pos isDef]
    refine ⟨⟨isWord, iff_of_true rfl isDef, iff_of_false nofun ?_⟩, rfl, rfl⟩
    rw [isDef]
    decide
  · rw [if_neg isDef]
    by_cases isExtern : word = "extern".toList
    · rw [if_pos isExtern]
      exact ⟨⟨isWord, iff_of_false nofun isDef, iff_of_true rfl isExtern⟩, rfl, rfl⟩
    · rw [if_neg isExtern]
      exact ⟨⟨isWord, iff_of_false nofun isDef, iff_of_false nofun isExtern⟩, rfl, rfl⟩

theorem spells_number (numeral : IsNumeral text) : TokenKind.number.Spells text := by
  refine ⟨numeral, iff_of_false nofun ?_, iff_of_false nofun ?_⟩
  · rintro rfl
    have number := numeral.2 'd' (by decide)
    cases number
  · rintro rfl
    have number := numeral.2 'e' (by decide)
    cases number

theorem spells_symbol (symbol : isSymbol c = true) : (TokenKind.char c).Spells [c] := by
  refine ⟨⟨rfl, symbol⟩, iff_of_false nofun ?_, iff_of_false nofun ?_⟩
  · intro eq
    cases congrArg List.length eq
  · intro eq
    cases congrArg List.length eq

/-- What follows a run does not go on with it. -/
theorem stops_dropWhile (p : Char → Bool) (text : List Char) :
    ∀ d ∈ (text.dropWhile p).head?, p d = false := by
  intro d first
  have stops := List.head?_dropWhile_not p text
  rw [first] at stops
  exact stops

/-- A piece that makes a token is spelled as its kind is, and nothing goes on with it. -/
theorem lexeme_token (makes : (lexeme c next).kind = some kind) :
    kind.Spells (lexeme c next).text ∧
      ∀ d ∈ (lexeme c next).rest.head?, kind.continues d = false := by
  have taken : ∀ {p : Char → Bool}, ∀ d ∈ next.takeWhile p, p d = true :=
    fun d member => List.mem_takeWhile_imp member
  unfold lexeme at makes ⊢
  split at makes
  · rename_i letter
    cases makes
    rw [if_pos letter]
    obtain ⟨spells, -, continues⟩ := spells_wordKind ⟨c, _, rfl, letter, taken⟩
    refine ⟨spells, ?_⟩
    rw [continues]
    exact stops_dropWhile isWordChar next
  rename_i noLetter
  split at makes
  · rename_i number
    cases makes
    rw [if_neg noLetter, if_pos number]
    refine ⟨spells_number ⟨List.cons_ne_nil c _, ?_⟩, stops_dropWhile isNumberChar next⟩
    intro d member
    rcases List.mem_cons.1 member with rfl | later
    · exact number
    · exact taken d later
  rename_i noNumber
  split at makes
  · cases makes
  rename_i noBlank
  split at makes
  · cases makes
  rename_i noComment
  cases makes
  rw [if_neg noLetter, if_neg noNumber, if_neg noBlank, if_neg noComment]
  have symbol : isSymbol c = true := by
    simp only [isLetter] at noLetter
    simp only [isNumberChar, Bool.or_eq_true, beq_iff_eq, not_or] at noNumber
    simp [isSymbol, isWordChar, Char.isAlphanum, noLetter, noNumber, noBlank, noComment]
  exact ⟨spells_symbol symbol, fun d _ => rfl⟩

/-- A piece that makes no token is a gap. -/
theorem lexeme_gap (skips : (lexeme c next).kind = none) :
    Gap (lexeme c next).text (lexeme c next).rest := by
  unfold lexeme at skips ⊢
  split at skips
  · cases skips
  rename_i noLetter
  split at skips
  · cases skips
  rename_i noNumber
  split at skips
  · rename_i blank
    rw [if_neg noLetter, if_neg noNumber, if_pos blank]
    apply Gap.of_blanks
    intro d member
    rcases List.mem_cons.1 member with rfl | later
    · exact blank
    · exact List.mem_takeWhile_imp later
  rename_i noBlank
  split at skips
  · rename_i comment
    rw [if_neg noLetter, if_neg noNumber, if_neg noBlank, if_pos comment, comment]
    rw [← List.append_nil (next.takeWhile isCommentChar)]
    refine .comment ?_ ?_ (.nil _)
    · intro d member
      have inside : isCommentChar d = true := List.mem_takeWhile_imp member
      simpa [isCommentChar] using inside
    · intro d first
      have ends := stops_dropWhile isCommentChar next d first
      rw [isCommentChar, Bool.and_eq_false_iff] at ends
      simpa using ends
  · cases skips

/-! ### Tokens in their places -/

/-- The token stands in a text after `front`, which ends with the token before it, and a
    `gap`, and before `back`: its span is where its text stands, nothing but the gap lies
    between it and the token before, and it is as long as its class allows.  No longer text
    around it is of its class, unless that reached into the token before it.  A word does not
    even do that; but a number begins where a word ends that took digits from it. -/
structure Token.Placed (file : String) (front gap back : List Char) (t : Token) : Prop where
  span : t.span = .within file (byteLength (front ++ gap))
    (byteLength (front ++ gap ++ t.text.toList))
  skipped : Gap gap (t.text.toList ++ back)
  spells : t.kind.Spells t.text.toList
  longest : ∀ left right, left <:+ gap → right <+: back →
    t.kind.Class (left ++ (t.text.toList ++ right)) → left = [] ∧ right = []
  longestWord : IsWord t.text.toList → ∀ left right, left <:+ front ++ gap → right <+: back →
    IsWord (left ++ (t.text.toList ++ right)) → left = [] ∧ right = []

inductive Tiling (file : String) : List Char → List Char → List Token → Prop where
  | ended {front gap : List Char} (skipped : Gap gap []) :
    Tiling file front gap [.endAt file (byteLength (front ++ gap))]
  | token {front gap back : List Char} {t : Token} {tokens : List Token}
    (placed : t.Placed file front gap back)
    (others : Tiling file (front ++ gap ++ t.text.toList) back tokens) :
    Tiling file front (gap ++ (t.text.toList ++ back)) (t :: tokens)

theorem TokenKind.Class.word (classed : kind.Class text) (word : IsWord text) :
    kind.Class = IsWord := by
  obtain ⟨c, rest, rfl, letter, -⟩ := word
  cases kind with
  | identifier | defKeyword | externKeyword => rfl
  | number =>
    rw [not_isLetter_of_isNumberChar (classed.2 c List.mem_cons_self)] at letter
    cases letter
  | char d =>
    obtain ⟨eq, symbol⟩ := classed
    cases eq
    simp [isSymbol, isWordChar_of_isLetter letter] at symbol
  | eof => exact classed.elim

/-- A token that nothing goes on with, before or behind it, is as long as its class allows. -/
theorem placed_of_stops {t : Token} {back : List Char}
    (span : t.span = .within file (byteLength (front ++ gap))
      (byteLength (front ++ gap ++ t.text.toList)))
    (skipped : Gap gap (t.text.toList ++ back)) (spells : t.kind.Spells t.text.toList)
    (stops : ∀ c ∈ back.head?, t.kind.continues c = false)
    (apart : Apart (front ++ gap) (t.text.toList ++ back)) : t.Placed file front gap back := by
  obtain ⟨c, rest, chars⟩ := List.exists_cons_of_ne_nil spells.classed.ne_nil
  have first : (t.text.toList ++ back).head? = some c := by rw [chars]; rfl
  have inLine : c ≠ '\n' ∧ c ≠ '\r' := spells.classed.inLine (by rw [chars]; rfl)
  have longest : ∀ left right, left <:+ gap → right <+: back →
      t.kind.Class (left ++ (t.text.toList ++ right)) → left = [] ∧ right = [] := by
    intro left right suffix isPrefix classed
    constructor
    · apply Decidable.of_not_not
      intro longer
      obtain ⟨d, member, blank⟩ := skipped.exists_blank first inLine suffix longer
      rw [classed.not_blank d (List.mem_append_left _ member)] at blank
      cases blank
    · cases right with
      | nil => rfl
      | cons d right =>
        rw [← List.append_assoc] at classed
        have begun : left ++ t.text.toList ≠ [] := by simp [chars]
        have goesOn := classed.continues begun d List.mem_cons_self
        obtain ⟨after, rfl⟩ := isPrefix
        rw [stops d rfl] at goesOn
        cases goesOn
  refine ⟨span, skipped, spells, longest, ?_⟩
  intro isWord left right suffix isPrefix word
  have empty : left = [] := by
    apply Decidable.of_not_not
    intro longer
    obtain ⟨d, left, rfl⟩ := List.exists_cons_of_ne_nil longer
    obtain ⟨e, more, eq, letter, all⟩ := word
    obtain ⟨rfl, rfl⟩ := List.cons.inj eq
    have before : IsWord (d :: left) :=
      ⟨d, left, rfl, letter, fun f member => all f (List.mem_append_left _ member)⟩
    have among : c ∈ left ++ (t.text.toList ++ right) := by simp [chars]
    have goesOn := all c among
    rw [apart _ suffix before c first] at goesOn
    cases goesOn
  subst empty
  rw [← spells.classed.word isWord] at word
  exact longest [] right (List.nil_suffix) isPrefix word

/-- Scanning goes on behind a gap, and not in the middle of a word. -/
theorem scanFrom_tiling (file : String) (offset : Nat) (text : List Char) :
    ∀ front gap, Gap gap text → Apart (front ++ gap) text → offset = byteLength (front ++ gap) →
      Tiling file front (gap ++ text) (scanFrom file offset text) := by
  fun_induction scanFrom file offset text with
  | case1 offset =>
    intro front gap skipped apart here
    subst here
    rw [List.append_nil]
    exact .ended skipped
  | case2 offset c next piece stop kind makes token ih =>
    intro front gap skipped apart here
    have split : piece.text ++ piece.rest = c :: next := lexeme_text_append c next
    have text_eq : token.text.toList = piece.text := String.toList_ofList
    obtain ⟨spells, stops⟩ := lexeme_token makes
    have stop_eq : stop = byteLength (front ++ gap ++ piece.text) := by
      rw [byteLength_append (front ++ gap), ← here]
    rw [← split] at skipped apart ⊢
    have placed : token.Placed file front gap piece.rest := by
      apply placed_of_stops
      · rw [text_eq, ← stop_eq, ← here]
      · rwa [text_eq]
      · rwa [text_eq]
      · exact stops
      · rwa [text_eq]
    have others : Tiling file (front ++ gap ++ piece.text) piece.rest
        (scanFrom file stop piece.rest) := by
      apply ih _ [] (.nil _)
      · rw [List.append_nil]
        exact spells.classed.apart stops apart
      · rw [List.append_nil]
        exact stop_eq
    rw [← text_eq] at others ⊢
    exact .token placed others
  | case3 offset c next piece stop skips ih =>
    intro front gap skipped apart here
    have split : piece.text ++ piece.rest = c :: next := lexeme_text_append c next
    have more : Gap piece.text piece.rest := lexeme_gap skips
    rw [← split, ← List.append_assoc]
    rw [← split] at skipped apart
    apply ih
    · exact skipped.append more
    · rw [← List.append_assoc]
      exact more.apart apart
    · rw [← List.append_assoc, byteLength_append (front ++ gap), ← here]

/-- The tokens of a source tile it.  Gaps of blanks and complete comments lie before, between
    and behind them, and each is as long as its class allows.  They stand in the order of the
    source and do not overlap.  The end of input is the last of them and no other, after the
    last byte; every other token has a span that is not empty and the text of that span. -/
theorem tokens_tile (source file : String) :
    Tiling file [] source.toList (tokenize source file) ∧
      (tokenize source file).Pairwise Token.Before ∧
      ∃ others, tokenize source file = others ++ [.endAt file (byteLength source.toList)] ∧
        ∀ t ∈ others, t.kind ≠ .eof ∧ t.span.start.offset < t.span.stop.offset ∧
          ∃ front back, source.toList = front ++ (t.text.toList ++ back) ∧
            t.span = .within file (byteLength front) (byteLength (front ++ t.text.toList)) := by
  obtain ⟨others, eq, pieces, ordered⟩ := scanned_pieces file 0 source.toList
  rw [Nat.zero_add] at eq
  refine ⟨?_, ?_, others, eq, ?_⟩
  · exact scanFrom_tiling file 0 source.toList [] [] (.nil _) (apart_nil _) rfl
  · rw [tokenize, eq, List.pairwise_append]
    refine ⟨ordered, List.pairwise_singleton _ _, ?_⟩
    intro t member u last
    rw [List.mem_singleton.1 last]
    have le := (pieces t member).stop_le
    rwa [Nat.zero_add] at le
  · intro t member
    have piece := pieces t member
    obtain ⟨front, back, cut, span⟩ := piece.stands
    refine ⟨piece.notEnd, piece.start_lt_stop, front, back, cut, ?_⟩
    rw [span, byteLength_append, Nat.zero_add]

/-- A number is not always a whole run of digits and points in the source: in `a1.2` the word
    takes a digit of the run `1.2`, and the number is what is left of it. -/
theorem number_behind_word :
    ¬ ∀ (source file : String) (t : Token), t ∈ tokenize source file → t.kind = .number →
      ∀ front back, source.toList = front ++ (t.text.toList ++ back) →
        t.span = .within file (byteLength front) (byteLength (front ++ t.text.toList)) →
        ∀ left right, left <:+ front → right <+: back →
          IsNumeral (left ++ (t.text.toList ++ right)) → left = [] ∧ right = [] := by
  intro maximal
  have word : lexeme 'a' ['1', '.', '2'] = ⟨some .identifier, ['a', '1'], ['.', '2']⟩ := rfl
  have number : lexeme '.' ['2'] = ⟨some .number, ['.', '2'], []⟩ := rfl
  have cut : ∃ t ∈ tokenize "a1.2" "shell", t.kind = .number ∧ t.text.toList = ['.', '2'] ∧
      t.span = .within "shell" (byteLength ['a', '1']) (byteLength ['a', '1', '.', '2']) := by
    have chars : "a1.2".toList = ['a', '1', '.', '2'] := rfl
    rw [tokenize, chars, scanFrom, word]
    simp only
    rw [scanFrom, number]
    exact ⟨_, List.mem_cons_of_mem _ List.mem_cons_self, rfl, String.toList_ofList, rfl⟩
  obtain ⟨t, member, kind, text, span⟩ := cut
  have longer : IsNumeral ['1', '.', '2'] :=
    ⟨List.cons_ne_nil _ _, List.all_eq_true.1 rfl⟩
  have whole := maximal "a1.2" "shell" t member kind ['a', '1'] [] (by rw [text]; rfl)
    (by rw [text]; exact span) ['1'] [] (List.suffix_cons 'a' ['1']) List.nil_prefix
    (by rw [text]; exact longer)
  cases whole.1

end Reckon
