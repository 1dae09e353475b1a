/-
  Reading before a separator.

  A token that separates constructs is taken by none of them.  So what is read before one is
  what is read where the tokens end, whatever follows the separator, unless reading fails
  because it came to the end (`Parse.SameBefore`).
-/
import Reckon.Grammar.Progress
import Reckon.Proofs.Grammar.Acceptance

namespace Reckon

/-! ### One cursor before another -/

namespace Cursor

variable {c d : Cursor}

/-- The tokens ahead of `c` and then those of `d`, up to the end of `d`. -/
def before (c d : Cursor) : Cursor := ⟨c.ahead ++ d.ahead, d.final, d.final_kind⟩

theorem current_before (more : c.ahead ≠ []) : (c.before d).current = c.current := by
  obtain ⟨t, rest, ahead⟩ := List.exists_cons_of_ne_nil more
  simp [current, before, ahead]

theorem kind_before (more : c.ahead ≠ []) : (c.before d).kind = c.kind :=
  congrArg Token.kind (current_before more)

theorem advance_before (more : c.ahead ≠ []) : (c.before d).advance = c.advance.before d := by
  obtain ⟨t, rest, ahead⟩ := List.exists_cons_of_ne_nil more
  simp [advance, before, ahead]

theorem complaint_before (more : c.ahead ≠ []) (what : Expectation) :
    (c.before d).complaint what = c.complaint what := by
  rw [complaint, complaint, position, position, current_before more]

theorem before_of_nil (ended : c.ahead = []) : c.before d = d := by
  simp [before, ended]

end Cursor

def Cursor.Separated (table : OperatorTable) (d : Cursor) : Prop :=
  ∀ t ∈ d.ahead.head?, table.Separates t.kind

variable {table : OperatorTable} {c d : Cursor}

theorem Reader.run_separated {g : Reading} (separated : d.Separated g.table) (r : Reader)
    (tokens : List Token) :
    r.run g (tokens ++ d.ahead) = ((r.run g tokens).1, (r.run g tokens).2 ++ d.ahead) := by
  induction tokens generalizing r with
  | nil =>
    rw [List.nil_append]
    cases ahead : d.ahead with
    | nil => rfl
    | cons t rest =>
      have stuck : r.shift g t = none := Reader.shift_separator g r (separated t (by rw [ahead]; rfl))
      simp only [Reader.run, stuck, List.nil_append]
  | cons t rest ih =>
    rw [List.cons_append, Reader.run, Reader.run]
    cases r.shift g t with
    | none => rfl
    | some r' => exact ih r'

theorem takeNames_separated (separated : d.Separated table) (tokens : List Token) :
    takeNames (tokens ++ d.ahead) =
      ((takeNames tokens).1, (takeNames tokens).2 ++ d.ahead) := by
  induction tokens with
  | nil =>
    rw [List.nil_append]
    cases ahead : d.ahead with
    | nil => rfl
    | cons t rest =>
      have notName := (separated t (by rw [ahead]; rfl)).notName
      simp only [takeNames, if_neg notName, List.nil_append]
  | cons t rest ih =>
    simp only [List.cons_append, takeNames, ih]
    split <;> rfl

/-! ### Reading -/

namespace Parse

variable {α β : Type} {p : Parse α} {f : α → Parse β}

/-- Before `d` the same is read from `c`, unless reading fails at the end of `c`. -/
def SameBefore (d : Cursor) (p : Parse α) (c : Cursor) : Prop :=
  (∀ e c', p.outcome c = (.error e, c') → c'.ahead ≠ []) →
    p.outcome (c.before d) = ((p.outcome c).1, (p.outcome c).2.before d)

theorem SameBefore.bind (first : p.SameBefore d c) (second : ∀ a c', (f a).SameBefore d c') :
    (p >>= f).SameBefore d c := by
  intro inside
  rw [outcome_bind] at inside
  rw [outcome_bind, outcome_bind]
  rcases came : p.outcome c with ⟨e | a, c'⟩ <;> rw [came] at inside
  · have stopped : c'.ahead ≠ [] := inside e c' rfl
    have same := first fun e' c'' refused => by
      rw [came] at refused
      cases refused
      exact stopped
    rw [same, came]
  · have same := first fun e' c'' refused => by
      rw [came] at refused
      cases refused
    rw [same, came]
    exact second a c' inside

theorem sameBefore_pure (a : α) (c : Cursor) : (pure a : Parse α).SameBefore d c := by
  intro _
  rfl

theorem sameBefore_next (more : c.ahead ≠ []) : next.SameBefore d c := by
  intro _
  rw [outcome_next, outcome_next, Cursor.current_before more, Cursor.advance_before more]

theorem sameBefore_expect (kind : TokenKind) (what : Expectation) (notEnd : kind ≠ .eof)
    (c : Cursor) : (expect kind what).SameBefore d c := by
  intro inside
  rw [outcome_expect] at inside
  have more : c.ahead ≠ [] := by
    intro ended
    have eof : c.kind = .eof := by simp [Cursor.kind, Cursor.current, ended, c.final_kind]
    have missing : c.kind ≠ kind := fun here => notEnd (here.symm.trans eof)
    rw [if_neg missing] at inside
    exact inside _ _ rfl ended
  rw [outcome_expect, outcome_expect, Cursor.kind_before more]
  split
  · rw [Cursor.current_before more, Cursor.advance_before more]
  · rw [Cursor.complaint_before more]

theorem sameBefore_names (separated : d.Separated table) (c : Cursor) :
    names.SameBefore d c := by
  intro _
  rw [outcome_names, outcome_names]
  simp only [Cursor.before, takeNames_separated separated]

theorem sameBefore_read {g : Reading} (separated : d.Separated g.table) (r : Reader)
    (c : Cursor) : (r.read g).SameBefore d c := by
  intro inside
  have ran := Reader.run_separated separated r c.ahead
  rw [outcome_read] at inside
  rw [outcome_read, outcome_read]
  simp only [Cursor.before, ran]
  cases settled : (r.run g c.ahead).1.settle with
  | ok e => rfl
  | error what =>
    simp only [settled] at inside
    let after : Cursor := { c with ahead := (r.run g c.ahead).2 }
    have more : after.ahead ≠ [] := inside _ after rfl
    have complaint := after.complaint_before (d := d) more what
    exact congrArg (fun complaint => (Except.error complaint, after.before d)) complaint

theorem sameBefore_prototype (separated : d.Separated table) (c : Cursor) :
    prototype.SameBefore d c := by
  unfold prototype
  refine (sameBefore_expect .identifier _ nofun c).bind fun name c => ?_
  refine (sameBefore_expect (.char '(') _ nofun c).bind fun _ c => ?_
  refine (sameBefore_names separated c).bind fun params c => ?_
  exact (sameBefore_expect (.char ')') _ nofun c).bind fun close c => sameBefore_pure _ c

theorem sameBefore_expression (separated : d.Separated table) (c : Cursor) :
    (expression table).SameBefore d c :=
  sameBefore_read separated _ c

theorem sameBefore_topLevel (separated : d.Separated table) (c : Cursor) :
    (topLevel table).SameBefore d c :=
  (sameBefore_expression separated c).bind fun _ c => sameBefore_pure _ c

theorem sameBefore_external (separated : d.Separated table) (more : c.ahead ≠ []) :
    external.SameBefore d c :=
  (sameBefore_next more).bind fun _ c => sameBefore_prototype separated c

theorem sameBefore_definition (separated : d.Separated table) (more : c.ahead ≠ []) :
    (definition table).SameBefore d c := by
  unfold definition
  refine (sameBefore_next more).bind fun _ c => ?_
  refine (sameBefore_prototype separated c).bind fun proto c => ?_
  exact (sameBefore_expression separated c).bind fun body c => sameBefore_pure _ c

end Parse

end Reckon
