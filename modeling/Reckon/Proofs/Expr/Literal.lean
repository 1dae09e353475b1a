/-
  Values of literals.

  A number token of a source has only digits and points in its text (`isNumeral_of_number`), and
  every literal of an expression was read from such a token (`exists_number_of_node`).  So what is
  known of the number that a text starts with holds of every literal: it is what stands in front
  of the second point of the text, and neither NaN nor negative (`literals_read`).
-/
import Reckon.Proofs.Decimal.Leading
import Reckon.Proofs.Expr.Nesting
import Reckon.Proofs.Token.Layout

namespace Reckon

open Decimal

variable {source file : String} {table : OperatorTable} {t : Token} {ts : List Token} {e : Expr}
  {x : Float} {s : Span}

/-! ### Number tokens -/

theorem isNumeral_of_number (scanned : t ∈ tokenize source file) (kind : t.kind = .number) :
    IsNumeral t.text.toList := by
  have kept : t ∈ written (tokenize source file) := by
    apply List.mem_filter.2
    simp [scanned, kind]
  have spells := (tokenize_written source file).1 t kept
  rw [kind] at spells
  exact spells.classed

theorem valueOf_number (scanned : t ∈ tokenize source file) (kind : t.kind = .number) :
    ValueOf t.text.toList t.number :=
  valueOf_leadingNumber (isNumeral_of_number scanned kind).2

/-! ### Literals -/

/-- A literal was read from a number of the word. -/
theorem Expression.exists_number (word : Expression table ts (.num x s)) :
    ∃ t ∈ ts, t.kind = .number ∧ x = t.number ∧ s = t.span := by
  obtain ⟨us, part, shape⟩ := word.shape
  cases shape with
  | number t kind => exact ⟨t, part.subset (List.mem_singleton_self t), kind, rfl, rfl⟩

theorem exists_number_of_node {c c' : Cursor}
    (reached : c.ahead <:+ (Cursor.ofSource source file).ahead)
    (read : (Parse.expression table).outcome c = (.ok e, c')) (node : e.Node (.num x s)) :
    ∃ t ∈ tokenize source file, t.kind = .number ∧ x = t.number ∧ s = t.span := by
  obtain ⟨taken, ahead, word⟩ := Parse.word_of_expression read
  obtain ⟨us, part, ofNode⟩ := word.of_node node
  obtain ⟨t, among, number⟩ := ofNode.exists_number
  have taken : t ∈ c.ahead := by
    rw [ahead]
    exact List.mem_append_left c'.ahead (part.subset among)
  exact ⟨t, (stretch_ofSource source file).scanned t (reached.subset taken), number⟩

/-- A text of digits and points stands for the double in front of its second point, and for
    zero if no digit is there; what is behind that point never matters.  Every number token of
    a source has such a text, and every literal that is read from the source, wherever that
    begins and with every table, has the value of such a token and is neither NaN nor
    negative. -/
theorem literals_read (table : OperatorTable) (source file : String) :
    (∀ text : String, DigitsAndPoints text.toList → ValueOf text.toList (leadingNumber text)) ∧
      (∀ front back, DigitsAndPoints (front ++ '.' :: back) → front.count '.' = 1 →
        leadingNumber (String.ofList (front ++ '.' :: back)) =
          leadingNumber (String.ofList front)) ∧
      (∀ t ∈ tokenize source file, t.kind = .number →
        IsNumeral t.text.toList ∧ ValueOf t.text.toList t.number) ∧
      ∀ c c' e x s, c.ahead <:+ (Cursor.ofSource source file).ahead →
        (Parse.expression table).outcome c = (.ok e, c') → e.Node (.num x s) →
          NotNegative x ∧
            ∃ t ∈ tokenize source file, t.kind = .number ∧ x = t.number ∧ s = t.span := by
  refine ⟨?_, ?_, ?_, ?_⟩
  · intro text chars
    exact valueOf_leadingNumber chars
  · intro front back chars one
    exact leadingNumber_second chars one
  · intro t scanned kind
    exact ⟨isNumeral_of_number scanned kind, valueOf_number scanned kind⟩
  · intro c c' e x s reached read node
    obtain ⟨t, scanned, kind, rfl, rfl⟩ := exists_number_of_node reached read node
    exact ⟨(valueOf_number scanned kind).notNegative, t, scanned, kind, rfl, rfl⟩

/-- A text with a second point that is read up to there, one without a digit in front of its
    second point, and a literal with points in a call. -/
theorem literals_read_points :
    (∃ d, readNumeral "1.2".toList = some d ∧ leadingNumber "1.2.3" = d.toFloat) ∧
      leadingNumber "..7" = 0 ∧
      leadingNumber (String.ofList ("1.2".toList ++ '.' :: "3".toList)) =
        leadingNumber (String.ofList "1.2".toList) ∧
      (∃ t ∈ tokenize "f(.5.., a)" "", t.text = ".5.." ∧ IsNumeral t.text.toList ∧
        ValueOf t.text.toList t.number) ∧
      ∃ e c' x s,
        (Parse.expression .standard).outcome (Cursor.ofSource "f(.5.., a)" "") = (.ok e, c') ∧
          e.Node (.num x s) ∧ s = .within "" 2 6 ∧ (x == leadingNumber ".5") = true ∧
            NotNegative x := by
  obtain ⟨texts, second, numbers, literals⟩ := literals_read .standard "f(.5.., a)" ""
  have front : beforeSecondPoint "1.2.3".toList = "1.2".toList := by decide
  have noDigit : beforeSecondPoint "..7".toList = ".".toList := by decide
  refine ⟨?_, ?_, ?_, ?_, ?_⟩
  · have value := (texts "1.2.3" (by decide)).read
    rw [front] at value
    exact value ⟨'1', by decide, rfl⟩
  · apply (texts "..7" (by decide)).zero
    rw [noDigit]
    exact List.forall_mem_singleton.2 rfl
  · exact second _ _ (by decide) (by decide)
  · have member : (⟨.number, ".5..", .within "" 2 6⟩ : Token) ∈ tokenize "f(.5.., a)" "" := by
      decide +kernel
    exact ⟨_, member, rfl, numbers _ member rfl⟩
  · have reads : (((Parse.expression .standard).outcome
        (Cursor.ofSource "f(.5.., a)" "")).1.toOption.any fun e => e.children.any fun n =>
          n.span = .within "" 2 6 && n.same (.num (leadingNumber ".5") n.span)) = true := by
      decide +kernel
    cases read : (Parse.expression .standard).outcome (Cursor.ofSource "f(.5.., a)" "") with
    | mk result c' =>
      rw [read] at reads
      cases result with
      | error d => cases reads
      | ok e =>
        obtain ⟨n, among, found⟩ := List.any_eq_true.1 reads
        obtain ⟨place, same⟩ := Bool.and_eq_true_iff.1 found
        cases n with
        | num x s =>
          have node : e.Node (.num x s) := .deeper among (.root _)
          exact ⟨e, c', x, s, rfl, node, of_decide_eq_true place, same,
            (literals _ _ _ _ _ (List.suffix_refl _) read node).1⟩
        | var | bin | call => cases same

end Reckon
