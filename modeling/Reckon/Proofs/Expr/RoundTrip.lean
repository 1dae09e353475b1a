/-
  Printed and read again.

  A tree is `Writable` if its names are names of the language, its literals are neither
  negative nor infinite nor NaN, and its operators are operators of the table that the
  language can write.  The text of such a tree is cut into a bracketed word that stands for
  the same tree (`scanned_chars`), and so every writable definition is read back from its
  text, its parameters in order and with their repeats (`reads_text`).
-/
import Reckon.Proofs.Grammar.Bracketing
import Reckon.Proofs.Token.Cutting
import Reckon.Proofs.Token.Placing
import Reckon.Expr.Print

namespace Reckon

/-! ### What can be written -/

structure OperatorTable.Writes (table : OperatorTable) (op : Char) : Prop where
  ascii : op.toNat < 128
  positive : ∃ strength, table.get? op = some strength ∧ 0 < strength
  symbol : isSymbol op = true

namespace Expr

mutual
def Writable (table : OperatorTable) : Expr → Prop
  | .num value _ => ∃ m, Decimal.Double.ofFloat value = .finite false m
  | .var name _ => IsName name
  | .bin op left right _ => table.Writes op ∧ left.Writable table ∧ right.Writable table
  | .call callee args _ => IsName callee ∧ WritableList table args

def WritableList (table : OperatorTable) : List Expr → Prop
  | [] => True
  | arg :: args => arg.Writable table ∧ WritableList table args
end

end Expr

structure Definition.Writable (table : OperatorTable) (d : Definition) : Prop where
  name : IsName d.proto.name
  params : ∀ param ∈ d.proto.params, IsName param
  body : d.body.Writable table

variable {table : OperatorTable} {op : Char}

theorem OperatorTable.Writes.operator (writes : table.Writes op) :
    ∃ strength, table.operator? (.char op) = some (op, strength) := by
  obtain ⟨strength, found, positive⟩ := writes.positive
  exact ⟨strength, by simp [operator?, writes.ascii, found, positive]⟩

/-! ### Expressions -/

namespace Expr

variable {file : String} {rest : List Char} {tokens : List Token}

theorem same_binary (op : Char) (left right : Expr) {left' right' : Expr} (span : Span)
    (ofLeft : left'.same left = true) (ofRight : right'.same right = true) :
    (binary op left' right').same (.bin op left right span) = true := by
  simp [binary, same, ofLeft, ofRight]

theorem same_callExpr {name closing : Token} {args args' : List Expr} (span : Span)
    (all : sameList args' args = true) :
    (Reader.callExpr name args' closing).same (.call name.text args span) = true := by
  simp [Reader.callExpr, same, all]

theorem breaks_moreArgChars (args : List Expr) (rest : List Char) :
    Breaks (moreArgChars args ++ (')' :: rest)) := by
  cases args with
  | nil => exact breaks_symbol rfl rest
  | cons arg args =>
    rw [moreArgChars, List.append_assoc, List.append_assoc]
    exact breaks_symbol rfl _

mutual
/-- The text of a writable tree is cut into a bracketed word that stands for the tree. -/
theorem scanned_chars : ∀ (e : Expr) {rest : List Char} {tokens : List Token},
    e.Writable table → Breaks rest → Scanned file (e.chars ++ rest) tokens →
    ∃ ts after e', tokens = ts ++ after ∧ Bracketed table ts e' ∧ e'.same e = true ∧
      Scanned file rest after
  | .num value span, rest, tokens, writable, breaks, scanned => by
    obtain ⟨m, finite⟩ := writable
    obtain ⟨digits, e, plain⟩ := Decimal.plain_write finite
    obtain ⟨t, after, rfl, kind, text, others⟩ := scanned.number plain breaks
    have value' : t.number = value := by
      rw [chars, String.ofList_toList] at text
      rw [Token.number, text, Decimal.leadingNumber_write finite]
    refine ⟨[t], after, _, rfl, .number t kind, ?_, others⟩
    rw [same, value']
    exact Decimal.beq_self finite
  | .var name span, rest, tokens, writable, breaks, scanned => by
    obtain ⟨t, after, rfl, kind, rfl, others⟩ := scanned.name writable breaks
    exact ⟨[t], after, _, rfl, .var t kind, by simp [same], others⟩
  | .bin op left right span, rest, tokens, ⟨writes, ofLeft, ofRight⟩, breaks, scanned => by
    obtain ⟨strength, operator⟩ := writes.operator
    have text : (Expr.bin op left right span).chars ++ rest = '(' :: (left.chars ++
        (' ' :: op :: ' ' :: (right.chars ++ (')' :: rest)))) := by
      simp [chars]
    rw [text] at scanned
    obtain ⟨opening, after, rfl, opens, scanned⟩ := scanned.symbol rfl
    obtain ⟨ts, after, left', rfl, leftWord, leftSame, scanned⟩ :=
      scanned_chars left ofLeft (breaks_space _) scanned
    obtain ⟨t, after, rfl, kind, scanned⟩ := scanned.space.symbol writes.symbol
    obtain ⟨us, after, right', rfl, rightWord, rightSame, scanned⟩ :=
      scanned_chars right ofRight (breaks_symbol rfl _) scanned.space
    obtain ⟨closing, after, rfl, closes, scanned⟩ := scanned.symbol rfl
    rw [← kind] at operator
    exact ⟨_, after, _, by simp, .operation opens leftWord operator rightWord closes,
      same_binary op left right span leftSame rightSame, scanned⟩
  | .call callee args span, rest, tokens, ⟨isName, all⟩, breaks, scanned => by
    have text : (Expr.call callee args span).chars ++ rest =
        callee.toList ++ '(' :: (argChars args ++ (')' :: rest)) := by
      simp [chars]
    rw [text] at scanned
    obtain ⟨name, after, rfl, named, rfl, called⟩ := scanned.name isName (breaks_symbol rfl _)
    obtain ⟨opening, after, rfl, opens, scanned⟩ := called.symbol rfl
    obtain ⟨ts, after, args', rfl, word, same, scanned⟩ := scanned_argChars args all scanned
    obtain ⟨closing, after, rfl, closes, scanned⟩ := scanned.symbol rfl
    have whole : Bracketed table (name :: opening :: (ts ++ [closing]))
        (Reader.callExpr name args' closing) := by
      rcases word with ⟨rfl, rfl⟩ | word
      · exact .callEmpty named opens closes
      · exact .call named opens word closes
    exact ⟨_, after, _, by simp, whole, same_callExpr span same, scanned⟩

theorem scanned_argChars : ∀ (args : List Expr) {rest : List Char} {tokens : List Token},
    WritableList table args → Scanned file (argChars args ++ (')' :: rest)) tokens →
    ∃ ts after args', tokens = ts ++ after ∧ (ts = [] ∧ args' = [] ∨ BracketedArgs table ts args') ∧
      sameList args' args = true ∧ Scanned file (')' :: rest) after
  | [], rest, tokens, _, scanned => ⟨[], tokens, [], rfl, Or.inl ⟨rfl, rfl⟩, rfl, scanned⟩
  | arg :: args, rest, tokens, ⟨first, others⟩, scanned => by
    rw [argChars, List.append_assoc] at scanned
    obtain ⟨ts, after, e', rfl, word, same, scanned⟩ :=
      scanned_chars arg first (breaks_moreArgChars args rest) scanned
    obtain ⟨us, after, args', rfl, words, all, scanned⟩ :=
      scanned_moreArgChars word args others scanned
    exact ⟨ts ++ us, after, e' :: args', by simp, Or.inr words, by
      rw [sameList, same, all, Bool.true_and], scanned⟩

/-- The arguments after one of which the word is known. -/
theorem scanned_moreArgChars {ts : List Token} {e : Expr} (word : Bracketed table ts e) :
    ∀ (args : List Expr) {rest : List Char} {tokens : List Token}, WritableList table args →
    Scanned file (moreArgChars args ++ (')' :: rest)) tokens →
    ∃ us after args', tokens = us ++ after ∧ BracketedArgs table (ts ++ us) (e :: args') ∧
      sameList args' args = true ∧ Scanned file (')' :: rest) after
  | [], rest, tokens, _, scanned => ⟨[], tokens, [], rfl, by
      rw [List.append_nil]
      exact .one word, rfl, scanned⟩
  | arg :: args, rest, tokens, ⟨first, others⟩, scanned => by
    have text : moreArgChars (arg :: args) ++ (')' :: rest) =
        ',' :: ' ' :: (arg.chars ++ (moreArgChars args ++ (')' :: rest))) := by
      simp [moreArgChars]
    rw [text] at scanned
    obtain ⟨comma, after, rfl, separates, scanned⟩ := scanned.symbol rfl
    obtain ⟨us, after, e', rfl, word', same, scanned⟩ :=
      scanned_chars arg first (breaks_moreArgChars args rest) scanned.space
    obtain ⟨vs, after, args', rfl, words, all, scanned⟩ :=
      scanned_moreArgChars word' args others scanned
    exact ⟨comma :: (us ++ vs), after, e' :: args', by simp, .more word separates words, by
      rw [sameList, same, all, Bool.true_and], scanned⟩
end

end Expr

/-! ### Prototypes -/

section Prototypes

variable {file : String} {rest : List Char} {tokens : List Token}

theorem Prototype.scanned_paramChars : ∀ (params : List String) {tokens : List Token},
    (∀ param ∈ params, IsName param) → Scanned file (paramChars params ++ (')' :: rest)) tokens →
    ∃ ts after, tokens = ts ++ after ∧ (∀ t ∈ ts, t.kind = .identifier) ∧
      ts.map (·.text) = params ∧ Scanned file (')' :: rest) after
  | [], tokens, _, scanned => ⟨[], tokens, rfl, nofun, rfl, scanned⟩
  | [param], tokens, names, scanned => by
    have isName := names param List.mem_cons_self
    obtain ⟨t, after, rfl, kind, rfl, others⟩ := scanned.name isName (breaks_symbol rfl _)
    exact ⟨[t], after, rfl, by simp [kind], rfl, others⟩
  | param :: next :: params, tokens, names, scanned => by
    have isName := names param List.mem_cons_self
    have later : ∀ name ∈ next :: params, IsName name :=
      fun name member => names name (List.mem_cons_of_mem param member)
    rw [paramChars, List.append_assoc] at scanned
    · obtain ⟨t, after, rfl, kind, rfl, spaced⟩ := scanned.name isName (breaks_space _)
      obtain ⟨ts, after, rfl, kinds, texts, others⟩ :=
        scanned_paramChars (next :: params) later spaced.space
      refine ⟨t :: ts, after, rfl, ?_, by rw [List.map_cons, texts], others⟩
      intro u member
      rcases List.mem_cons.1 member with rfl | behind
      · exact kind
      · exact kinds u behind
    · nofun

theorem Prototype.scanned_chars (p : Prototype) (name : IsName p.name)
    (params : ∀ param ∈ p.params, IsName param) (scanned : Scanned file (p.chars ++ rest) tokens) :
    ∃ ts after p', tokens = ts ++ after ∧ PrototypeWord ts p' ∧ p'.same p = true ∧
      Scanned file rest after := by
  have text : p.chars ++ rest = p.name.toList ++ '(' :: (paramChars p.params ++ (')' :: rest)) := by
    simp [chars]
  rw [text] at scanned
  obtain ⟨t, after, rfl, named, same, called⟩ := scanned.name name (breaks_symbol rfl _)
  obtain ⟨opening, after, rfl, opens, inside⟩ := called.symbol rfl
  obtain ⟨ts, after, rfl, kinds, texts, left⟩ := scanned_paramChars p.params params inside
  obtain ⟨closing, after, rfl, closes, others⟩ := left.symbol rfl
  refine ⟨_, after, _, ?_, .intro named opens kinds closes, ?_, others⟩
  · simp
  · simp [Prototype.same, same, texts]

end Prototypes

/-! ### Constructs -/

namespace Definition

theorem scanned_text (d : Definition) (file : String) :
    Scanned file d.chars (tokenize d.text file) := by
  have scanned := scanned_tokenize d.text file
  rwa [text, String.toList_ofList] at scanned

theorem isEmpty_of_isName {name : String} (isName : IsName name) : name.isEmpty = false := by
  obtain ⟨⟨c, rest, chars, -, -⟩, -, -⟩ := isName
  apply Bool.eq_false_iff.2
  intro empty
  rw [String.isEmpty_iff.1 empty] at chars
  cases chars

/-- Reading from `c` gave a definition that equals `d`, with the same parameters in the same
    order, and nothing was left ahead of the closing token. -/
def ReadFrom (c : Cursor) (d : Definition) (done : Except Diagnostic Definition × Cursor) : Prop :=
  ∃ d', done = (.ok d', { c with ahead := [] }) ∧ d'.same d = true ∧
    d'.proto.params = d.proto.params

theorem params_of_same {d d' : Definition} (same : d'.same d = true) :
    d'.proto.params = d.proto.params := by
  simp only [Definition.same, Prototype.same, Bool.and_eq_true, beq_iff_eq] at same
  exact same.1.2

theorem readFrom_text (delimits : table.Delimits) {d : Definition} (writable : d.Writable table)
    (file : String) :
    ReadFrom (.ofSource d.text file) d
      ((Parse.definition table).outcome (.ofSource d.text file)) := by
  have named : d.proto.isAnonymous = false := isEmpty_of_isName writable.name
  have text : d.chars =
      'd' :: (['e', 'f'] ++ ' ' :: (d.proto.chars ++ (' ' :: (d.body.chars ++ [])))) := by
    simp [chars, named]
  have scanned := d.scanned_text file
  rw [text] at scanned
  obtain ⟨keyword, after, eq, -, -, spaced⟩ :=
    scanned.token (lexeme_word rfl rfl (breaks_space _))
  obtain ⟨ts, after, p, rfl, word, sameProto, spaced'⟩ :=
    d.proto.scanned_chars writable.name writable.params spaced.space
  obtain ⟨us, after, e, rfl, body, sameBody, left⟩ :=
    Expr.scanned_chars d.body writable.body breaks_nil spaced'.space
  obtain ⟨t, rfl, last⟩ := left.nil
  have whole : keyword :: (ts ++ (us ++ [t])) = (keyword :: (ts ++ us)) ++ [t] := by simp
  rw [Cursor.ofSource, eq, whole, Cursor.ofTokens_concat file _ last]
  have same : Definition.same ⟨p, e⟩ d = true := by
    rw [Definition.same, sameProto, sameBody]
    rfl
  exact ⟨_, Parse.outcome_definitionWord delimits word body rfl, same, params_of_same same⟩

theorem readFrom_anonymous (delimits : table.Delimits) {e : Expr} (writable : e.Writable table)
    (file : String) :
    ReadFrom (.ofSource (anonymous e).text file) (anonymous e)
      ((Parse.topLevel table).outcome (.ofSource (anonymous e).text file)) := by
  have text : (anonymous e).chars = e.chars ++ [] := (List.append_nil e.chars).symm
  have scanned := (anonymous e).scanned_text file
  rw [text] at scanned
  obtain ⟨ts, after, e', eq, word, sameBody, left⟩ :=
    Expr.scanned_chars e writable breaks_nil scanned
  obtain ⟨t, rfl, last⟩ := left.nil
  rw [Cursor.ofSource, eq, Cursor.ofTokens_concat file _ last]
  exact ⟨.anonymous e', Parse.outcome_topLevelWord delimits word, sameBody, rfl⟩

/-- Reading undoes printing.  In every table in which brackets and commas are no operators, a
    definition with names of the language, with literals that are finite and not negative and
    with operators of the table that the language can write is read back from its text, and so
    is a bare expression: up to the closing token, as an equal definition, with its parameters
    in order and its repeats kept. -/
theorem reads_text (delimits : table.Delimits) (file : String) :
    (∀ d : Definition, d.Writable table →
      ReadFrom (.ofSource d.text file) d
        ((Parse.definition table).outcome (.ofSource d.text file))) ∧
    (∀ e : Expr, e.Writable table →
      ReadFrom (.ofSource (anonymous e).text file) (anonymous e)
        ((Parse.topLevel table).outcome (.ofSource (anonymous e).text file))) :=
  ⟨fun _ writable => readFrom_text delimits writable file,
    fun _ writable => readFrom_anonymous delimits writable file⟩

/-- A parameter that is repeated, and a literal that is no whole number. -/
theorem reads_text_of_repeated_parameter :
    let d : Definition := ⟨⟨"f", ["x", "y1", "x"], .nowhere⟩, .binary '+' (.num 2.5 .nowhere)
      (.call "g" [.var "x" .nowhere, .num 0 .nowhere] .nowhere)⟩
    OperatorTable.standard.Delimits ∧ d.Writable .standard ∧
      d.text = "def f(x y1 x) (2.5 + g(x, 0))" ∧
      ReadFrom (.ofSource d.text "") d
        ((Parse.definition .standard).outcome (.ofSource d.text "")) := by
  intro d
  have delimits : OperatorTable.standard.Delimits := ⟨rfl, rfl, rfl⟩
  have isF : IsName "f" := ⟨⟨'f', [], rfl, rfl, rfl⟩, by decide, by decide⟩
  have isG : IsName "g" := ⟨⟨'g', [], rfl, rfl, rfl⟩, by decide, by decide⟩
  have isX : IsName "x" := ⟨⟨'x', [], rfl, rfl, rfl⟩, by decide, by decide⟩
  have isY : IsName "y1" := ⟨⟨'y', ['1'], rfl, rfl, rfl⟩, by decide, by decide⟩
  have half : ∃ m, Decimal.Double.ofFloat 2.5 = .finite false m :=
    ⟨⟨5 * 2 ^ 50, 1023⟩, by decide +kernel⟩
  have zero : ∃ m, Decimal.Double.ofFloat 0 = .finite false m := ⟨⟨0, 0⟩, by decide +kernel⟩
  have plus : OperatorTable.standard.Writes '+' := ⟨by decide, ⟨20, rfl, by decide⟩, rfl⟩
  have writable : d.Writable .standard := by
    refine ⟨isF, ?_, plus, half, isG, isX, zero, trivial⟩
    intro param member
    simp only [d, List.mem_cons, List.not_mem_nil, or_false] at member
    rcases member with rfl | rfl | rfl
    · exact isX
    · exact isY
    · exact isX
  exact ⟨delimits, writable, by decide +kernel, (reads_text delimits "").1 d writable⟩

end Definition

end Reckon
