/-
  Reading operator assignments.

  An assignment is a character, an equals sign and an integer with blanks around it.  The
  character may be an equals sign too, so the text is cut at the last one, and what stands
  there before it and behind it decides what the text is read as (`AssignmentAnswer`): an
  assignment, or one of three faults, of which the first in the order of reading is reported.

  The integer is said here by its digits and their places (`IntegerText`), and not by how it
  is read.  The main statement is `readAssignment_exact`.
-/
import Mathlib.Data.Nat.Digits.Defs
import Reckon.Operator.Assignment
import Reckon.Proofs.Text.Trim
import Reckon.Proofs.Decimal.ReadBack
import Reckon.Proofs.Token.Cutting

namespace Reckon

/-! ### Cutting at the last place -/

section Cutting

variable {sep : Char} {text before after : List Char}

theorem cutAtLast_eq_none_iff : cutAtLast sep text = none ↔ sep ∉ text := by
  induction text with
  | nil => simp [cutAtLast]
  | cons c rest ih =>
    rw [cutAtLast, List.mem_cons, not_or, ← ih]
    cases cutAtLast sep rest with
    | some cut => simp
    | none => simp [eq_comm]

theorem cutAtLast_append (absent : sep ∉ after) (before : List Char) :
    cutAtLast sep (before ++ sep :: after) = some (before, after) := by
  induction before with
  | nil => rw [List.nil_append, cutAtLast, cutAtLast_eq_none_iff.2 absent, if_pos rfl]
  | cons c before ih => rw [List.cons_append, cutAtLast, ih]

theorem append_of_cutAtLast (cut : cutAtLast sep text = some (before, after)) :
    text = before ++ sep :: after ∧ sep ∉ after := by
  induction text generalizing before with
  | nil => cases cut
  | cons c rest ih =>
    rw [cutAtLast] at cut
    split at cut
    · rename_i front back later
      cases cut
      obtain ⟨rfl, absent⟩ := ih later
      exact ⟨rfl, absent⟩
    · rename_i none
      split at cut
      · rename_i eq
        cases cut
        exact ⟨by rw [eq, List.nil_append], cutAtLast_eq_none_iff.1 none⟩
      · cases cut

end Cutting

/-! ### Integers -/

/-- The number that decimal digits write: each counts ten times as much as the next. -/
def decimalValue (digits : List Char) : Nat :=
  Nat.ofDigits 10 (digits.reverse.map fun c => c.toNat - '0'.toNat)

/-- Decimal digits, with a sign before them or without one, and the integer that they write. -/
inductive IntegerText : List Char → Int → Prop where
  | unsigned {digits : List Char} (begun : digits ≠ []) (decimal : ∀ c ∈ digits, c.isDigit = true) :
    IntegerText digits (decimalValue digits)
  | plus {digits : List Char} (begun : digits ≠ []) (decimal : ∀ c ∈ digits, c.isDigit = true) :
    IntegerText ('+' :: digits) (decimalValue digits)
  | minus {digits : List Char} (begun : digits ≠ []) (decimal : ∀ c ∈ digits, c.isDigit = true) :
    IntegerText ('-' :: digits) (-(decimalValue digits : Int))

variable {digits text : List Char} {n : Nat} {i : Int}

theorem digitsValue_eq (digits : List Char) : Decimal.digitsValue digits = decimalValue digits := by
  induction digits using List.reverseRecOn with
  | nil => rfl
  | append_singleton digits c ih =>
    rw [decimalValue, List.reverse_append, List.reverse_singleton, List.singleton_append,
      List.map_cons, Nat.ofDigits_cons, ← decimalValue, ← ih, Decimal.digitsValue,
      List.foldl_append, ← Decimal.digitsValue, Nat.add_comm]
    rfl

theorem readNatural_eq_some_iff : readNatural digits = some n ↔
    digits ≠ [] ∧ (∀ c ∈ digits, c.isDigit = true) ∧ decimalValue digits = n := by
  have refuses : (digits.isEmpty || !digits.all Char.isDigit) = true ↔
      ¬ (digits ≠ [] ∧ ∀ c ∈ digits, c.isDigit = true) := by
    simp [or_iff_not_imp_left]
  rw [readNatural, digitsValue_eq, ← and_assoc]
  by_cases numeral : digits ≠ [] ∧ ∀ c ∈ digits, c.isDigit = true
  · rw [if_neg fun refused => refuses.1 refused numeral, Option.some_inj]
    exact (and_iff_right numeral).symm
  · rw [if_pos (refuses.2 numeral)]
    exact iff_of_false nofun fun reads => numeral reads.1

theorem readInteger_eq_some_iff : readInteger text = some i ↔ IntegerText text i := by
  constructor
  · intro reads
    unfold readInteger at reads
    split at reads
    all_goals
      obtain ⟨_, lifted, rfl⟩ := Option.map_eq_some_iff.1 reads
      obtain ⟨n, natural, eq⟩ := Option.bind_eq_some_iff.1 lifted
      obtain ⟨begun, decimal, rfl⟩ := readNatural_eq_some_iff.1 natural
      cases eq
    · exact .minus begun decimal
    · exact .plus begun decimal
    · exact .unsigned begun decimal
  · intro written
    cases written with
    | minus begun decimal =>
      rw [readInteger, readNatural_eq_some_iff.2 ⟨begun, decimal, rfl⟩]
      rfl
    | plus begun decimal =>
      rw [readInteger, readNatural_eq_some_iff.2 ⟨begun, decimal, rfl⟩]
      rfl
    | unsigned begun decimal =>
      rw [readInteger, readNatural_eq_some_iff.2 ⟨begun, decimal, rfl⟩]
      · rfl
      -- A sign is no digit, so neither of the cases with one applies.
      · rintro digits rfl
        cases decimal '-' List.mem_cons_self
      · rintro digits rfl
        cases decimal '+' List.mem_cons_self

/-! ### Strengths -/

/-- Blanks around an integer of 32 bits, which is the strength. -/
inductive StrengthText : List Char → Strength → Prop where
  | intro {lead core trail : List Char} {strength : Strength}
    (leading : ∀ c ∈ lead, Text.isBlank c = true) (integer : IntegerText core strength.toInt)
    (trailing : ∀ c ∈ trail, Text.isBlank c = true) :
    StrengthText (lead ++ (core ++ trail)) strength

/-- No blank is part of an integer. -/
theorem IntegerText.not_blank (written : IntegerText text i) :
    ∀ c ∈ text, Text.isBlank c = false := by
  have digit : ∀ c : Char, c.isDigit = true → Text.isBlank c = false := by
    intro c digit
    apply Bool.eq_false_iff.2
    intro blank
    have noNumber := (classes_of_isBlank blank).2
    simp [isNumberChar, digit] at noNumber
  cases written with
  | unsigned begun decimal => exact fun c member => digit c (decimal c member)
  | plus begun decimal | minus begun decimal =>
    intro c member
    rcases List.mem_cons.1 member with rfl | later
    · rfl
    · exact digit c (decimal c later)

theorem IntegerText.ne_nil (written : IntegerText text i) : text ≠ [] := by
  cases written with
  | unsigned begun => exact begun
  | plus | minus => exact List.cons_ne_nil _ _

theorem readStrength_eq_some_iff {strength : Strength} :
    readStrength text = some strength ↔ StrengthText text strength := by
  rw [readStrength, Option.bind_eq_some_iff]
  constructor
  · rintro ⟨i, reads, fits⟩
    obtain ⟨lead, trail, eq, leading, trailing⟩ := Text.trim_surrounded text
    split at fits
    · rename_i within
      cases fits
      rw [eq]
      refine .intro leading ?_ trailing
      rw [Int32.toInt_ofInt_of_le within.1 within.2]
      exact readInteger_eq_some_iff.1 reads
    · cases fits
  · rintro ⟨leading, integer, trailing⟩
    refine ⟨strength.toInt, ?_, ?_⟩
    · rw [Text.trim_eq integer.ne_nil integer.not_blank leading trailing]
      exact readInteger_eq_some_iff.2 integer
    · rw [if_pos ⟨strength.le_toInt, strength.toInt_lt⟩, Int32.ofInt_toInt]

/-! ### Assignments -/

/-- What a text is read as: an assignment, or the first fault in it.  It is cut at the last
    equals sign; that there is something before it comes first, then that this is one ASCII
    character, and then what stands behind it. -/
inductive AssignmentAnswer (text : String) : Except AssignmentFault (Char × Strength) → Prop where
  | assigned {op : Char} {after : List Char} {strength : Strength}
    (cut : text.toList = op :: '=' :: after) (last : '=' ∉ after) (ascii : op.toNat < 128)
    (written : StrengthText after strength) : AssignmentAnswer text (.ok (op, strength))
  | uncut (absent : '=' ∉ text.toList) : AssignmentAnswer text (.error (.malformed text))
  | nothingBefore {after : List Char} (cut : text.toList = '=' :: after) (last : '=' ∉ after) :
    AssignmentAnswer text (.error (.malformed text))
  | notOneCharacter {before after : List Char} (cut : text.toList = before ++ '=' :: after)
    (last : '=' ∉ after) (begun : before ≠ []) (other : ∀ op, before = [op] → 128 ≤ op.toNat) :
    AssignmentAnswer text (.error (.notOneCharacter (String.ofList before)))
  | notInteger {op : Char} {after : List Char} (cut : text.toList = op :: '=' :: after)
    (last : '=' ∉ after) (ascii : op.toNat < 128)
    (unwritten : ∀ strength, ¬ StrengthText after strength) :
    AssignmentAnswer text (.error (.notInteger (String.ofList after)))

theorem answer_readAssignment (text : String) : AssignmentAnswer text (readAssignment text) := by
  unfold readAssignment
  split
  · rename_i uncut
    exact .uncut (cutAtLast_eq_none_iff.1 uncut)
  · rename_i after cut
    obtain ⟨eq, last⟩ := append_of_cutAtLast cut
    exact .nothingBefore eq last
  · rename_i op after cut
    obtain ⟨eq, last⟩ := append_of_cutAtLast cut
    split
    · rename_i ascii
      split
      · rename_i strength reads
        exact .assigned eq last ascii (readStrength_eq_some_iff.1 reads)
      · rename_i unread
        refine .notInteger eq last ascii fun strength written => ?_
        rw [readStrength_eq_some_iff.2 written] at unread
        cases unread
    · rename_i high
      refine .notOneCharacter eq last (List.cons_ne_nil _ _) ?_
      rintro _ ⟨⟩
      exact Nat.not_lt.1 high
  · rename_i before after nonempty several cut
    obtain ⟨eq, last⟩ := append_of_cutAtLast cut
    refine .notOneCharacter eq last ?_ ?_
    · rintro rfl
      exact nonempty rfl
    · rintro op rfl
      exact absurd rfl (several op)

theorem AssignmentAnswer.readAssignment_eq {text : String}
    {answer : Except AssignmentFault (Char × Strength)} (answers : AssignmentAnswer text answer) :
    readAssignment text = answer := by
  have cutHere : ∀ before after, text.toList = before ++ '=' :: after → '=' ∉ after →
      cutAtLast '=' text.toList = some (before, after) := by
    intro before after cut last
    rw [cut, cutAtLast_append last]
  unfold readAssignment
  cases answers with
  | uncut absent => rw [cutAtLast_eq_none_iff.2 absent]
  | nothingBefore cut last => rw [cutHere [] _ cut last]
  | @assigned op after strength cut last ascii written =>
    rw [cutHere [op] after cut last]
    simp only [if_pos ascii, readStrength_eq_some_iff.2 written]
  | @notInteger op after cut last ascii unwritten =>
    have unread : readStrength after = none := by
      rw [Option.eq_none_iff_forall_not_mem]
      exact fun strength reads => unwritten strength (readStrength_eq_some_iff.1 reads)
    rw [cutHere [op] after cut last]
    simp only [if_pos ascii, unread]
  | @notOneCharacter before after cut last begun other =>
    rw [cutHere before after cut last]
    match before with
    | [] => exact absurd rfl begun
    | [op] => exact if_neg (Nat.not_lt.2 (other op rfl))
    | _ :: _ :: _ => rfl

/-! ### Writing -/

def integerText (i : Int) : List Char :=
  if i < 0 then '-' :: Decimal.digitText i.natAbs else Decimal.digitText i.natAbs

def assignmentText (op : Char) (strength : Strength) : String :=
  String.ofList (op :: '=' :: integerText strength.toInt)

theorem integerText_written (i : Int) : IntegerText (integerText i) i := by
  have begun := Decimal.digitText_ne_nil i.natAbs
  have decimal := Decimal.isDigit_digitText i.natAbs
  have value : decimalValue (Decimal.digitText i.natAbs) = i.natAbs := by
    rw [← digitsValue_eq, Decimal.digitsValue_digitText]
  unfold integerText
  split
  · have written := IntegerText.minus begun decimal
    rw [value, show -(i.natAbs : Int) = i by omega] at written
    exact written
  · have written := IntegerText.unsigned begun decimal
    rw [value, show (i.natAbs : Int) = i by omega] at written
    exact written

theorem equals_not_mem_integerText (i : Int) : '=' ∉ integerText i := by
  have noDigit : '=' ∉ Decimal.digitText i.natAbs := by
    intro member
    cases Decimal.isDigit_digitText i.natAbs '=' member
  unfold integerText
  split
  · simp [noDigit]
  · exact noDigit

/-- Reading a text answers with what the text is read as, and an assignment that was written is
    read as what it was written for. -/
theorem readAssignment_exact :
    (∀ text answer, readAssignment text = answer ↔ AssignmentAnswer text answer) ∧
      ∀ op strength, op.toNat < 128 →
        readAssignment (assignmentText op strength) = .ok (op, strength) := by
  refine ⟨fun text answer => ⟨?_, AssignmentAnswer.readAssignment_eq⟩, ?_⟩
  · rintro rfl
    exact answer_readAssignment text
  · intro op strength ascii
    have written : StrengthText ([] ++ (integerText strength.toInt ++ [])) strength :=
      .intro nofun (integerText_written strength.toInt) nofun
    rw [List.nil_append, List.append_nil] at written
    apply AssignmentAnswer.readAssignment_eq
    exact .assigned String.toList_ofList (equals_not_mem_integerText strength.toInt) ascii written

/-- The equals sign is given the least strength, and a strength is read with a sign, zeros and
    blanks around it. -/
theorem readAssignment_exact_equals_sign :
    '='.toNat < 128 ∧ assignmentText '=' Int32.minValue = "==-2147483648" ∧
      readAssignment "==-2147483648" = .ok ('=', Int32.minValue) ∧
      readAssignment "%= +007\u3000" = .ok ('%', 7) := by
  obtain ⟨answers, written⟩ := readAssignment_exact
  have ascii : '='.toNat < 128 := by decide
  have least : assignmentText '=' Int32.minValue = "==-2147483648" := by decide +kernel
  have reads := written '=' Int32.minValue ascii
  rw [least] at reads
  refine ⟨ascii, least, reads, (answers _ _).2 ?_⟩
  have decimal : ∀ c ∈ ['0', '0', '7'], c.isDigit = true := List.all_eq_true.1 rfl
  have value : decimalValue ['0', '0', '7'] = 7 := by decide +kernel
  have integer := IntegerText.plus (List.cons_ne_nil '0' ['0', '7']) decimal
  rw [value] at integer
  have seven : StrengthText ([' '] ++ (['+', '0', '0', '7'] ++ ['\u3000'])) 7 :=
    .intro (List.all_eq_true.1 rfl) integer (List.all_eq_true.1 rfl)
  exact .assigned rfl (by decide +kernel) (by decide) seven

end Reckon
