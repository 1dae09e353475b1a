/-
  Sessions.

  A session reads one top-level construct after the other, generates code for it and
  says what came of it.  A definition or an external declaration stays in the target; a
  bare expression is generated as a nameless function, run if that is wanted, and given
  up again.

  After a syntax error one token is discarded and reading goes on.  A construct that was
  read but could not be generated is behind the cursor already, so nothing more is
  discarded.
-/
import Reckon.Generate.Basic
import Reckon.Grammar.Progress

namespace Reckon

structure Settings where
  moduleName : String := "toy jit"
  /-- Operators added to the table. -/
  operators : List (Char × Strength) := []
  /-- Whether reports show the generated code. -/
  showCode : Bool := true
  /-- Whether bare expressions are run. -/
  evaluate : Bool := true
  /-- How deep calls may nest in a run. -/
  depthLimit : Nat := 256

inductive Outcome where
  | definition (name code : String)
  | external (name code : String)
  /-- There is no value where running is not wanted or not possible. -/
  | expression (code : String) (value : Option Float) (output : String)
  /-- A semicolon between constructs. -/
  | skipped
  | failed (d : Diagnostic)

/-- A session with a target whose states are `σ` and whose values are `V`. -/
structure Session (σ V : Type) where
  cursor : Cursor
  table : OperatorTable
  generator : Generator σ V
  settings : Settings
  /-- The source that diagnostics quote from, if it is known. -/
  source : String

namespace Session

variable {σ V F : Type}

/-- A session over a cursor, with the settings' operators added to the table. -/
def ofCursor (cursor : Cursor) (table : OperatorTable) (target : σ) (settings : Settings) :
    Session σ V :=
  { cursor, table := table.extend settings.operators, generator := ⟨target, []⟩, settings,
    source := "" }

def ofSource (source file : String) (target : σ) (settings : Settings) : Session σ V :=
  { ofCursor (.ofSource source file) .standard target settings with source }

/-- Go on after a syntax error: the token it stands on is discarded. -/
def recover (s : Session σ V) (d : Diagnostic) (c : Cursor) : Outcome × Session σ V :=
  (.failed d, { s with cursor := c.advance })

def generateDefinition (t : Target σ V F) (s : Session σ V) (d : Definition) :
    Outcome × Session σ V :=
  match (Gen.definition t d).outcome s.generator with
  | (.ok f, g) =>
    (.definition d.proto.name (t.print g.target f), { s with generator := g })
  | (.error e, g) => (.failed e, { s with generator := g })

def generateExternal (t : Target σ V F) (s : Session σ V) (p : Prototype) :
    Outcome × Session σ V :=
  match (Gen.prototype t p).outcome s.generator with
  | (.ok f, g) => (.external p.name (t.print g.target f), { s with generator := g })
  | (.error e, g) => (.failed e, { s with generator := g })

/-- Generate a bare expression that was read, run it, and give it up. -/
def generateExpression (t : Target σ V F) (s : Session σ V) (d : Definition) :
    Outcome × Session σ V :=
  match (Gen.definition t d).outcome s.generator with
  | (.error e, g) => (.failed e, { s with generator := g })
  | (.ok f, g) =>
    let code := t.print g.target f
    let (result, target) :=
      if s.settings.evaluate then (t.evaluate f).run.run g.target else (.ok none, g.target)
    let target := ((t.abandon f).run target).2
    let outcome := match result with
      | .ok (some evaluation) => .expression code (some evaluation.value) evaluation.output
      | .ok none => .expression code none ""
      | .error e => .failed ⟨e.toCause, d.proto.span.start⟩
    (outcome, { s with generator := { g with target } })

/-- Handle a definition, whatever token is at hand. -/
def definition (t : Target σ V F) (s : Session σ V) : Outcome × Session σ V :=
  match (Parse.definition s.table).outcome s.cursor with
  | (.ok d, c) => generateDefinition t { s with cursor := c } d
  | (.error e, c) => s.recover e c

def external (t : Target σ V F) (s : Session σ V) : Outcome × Session σ V :=
  match Parse.external.outcome s.cursor with
  | (.ok p, c) => generateExternal t { s with cursor := c } p
  | (.error e, c) => s.recover e c

def expression (t : Target σ V F) (s : Session σ V) : Outcome × Session σ V :=
  match (Parse.topLevel s.table).outcome s.cursor with
  | (.ok d, c) => generateExpression t { s with cursor := c } d
  | (.error e, c) => s.recover e c

/-- Handle the next construct; nothing at the end of the input. -/
def step (t : Target σ V F) (s : Session σ V) : Option (Outcome × Session σ V) :=
  match s.cursor.kind with
  | .eof => none
  | .char ';' => some (.skipped, { s with cursor := s.cursor.advance })
  | .defKeyword => some (s.definition t)
  | .externKeyword => some (s.external t)
  | _ => some (s.expression t)

/-! ### Every step takes a token -/

theorem ahead_ne_nil {c : Cursor} (h : c.kind ≠ .eof) : c.ahead ≠ [] := by
  intro eq
  exact h (by simp [Cursor.kind, Cursor.current, eq, c.final_kind])

theorem length_advance_le (c : Cursor) : c.advance.ahead.length ≤ c.ahead.length := by
  simp [Cursor.advance]

theorem length_advance_lt {c : Cursor} (h : c.ahead ≠ []) :
    c.advance.ahead.length < c.ahead.length := by
  cases eq : c.ahead with
  | nil => exact absurd eq h
  | cons t rest => simp [Cursor.advance, eq]

theorem cursor_generateDefinition (t : Target σ V F) (s : Session σ V) (d : Definition) :
    (s.generateDefinition t d).2.cursor = s.cursor := by
  unfold generateDefinition
  split <;> rfl

theorem cursor_generateExternal (t : Target σ V F) (s : Session σ V) (p : Prototype) :
    (s.generateExternal t p).2.cursor = s.cursor := by
  unfold generateExternal
  split <;> rfl

theorem cursor_generateExpression (t : Target σ V F) (s : Session σ V) (d : Definition) :
    (s.generateExpression t d).2.cursor = s.cursor := by
  unfold generateExpression
  split <;> rfl

theorem length_definition (t : Target σ V F) {s : Session σ V} (h : s.cursor.ahead ≠ []) :
    (s.definition t).2.cursor.ahead.length < s.cursor.ahead.length := by
  have lt := Parse.length_definition s.table h
  unfold definition
  split
  · rename_i eq
    rw [eq] at lt
    rw [cursor_generateDefinition]
    exact lt
  · rename_i eq
    rw [eq] at lt
    exact Nat.lt_of_le_of_lt (length_advance_le _) lt

theorem length_external (t : Target σ V F) {s : Session σ V} (h : s.cursor.ahead ≠ []) :
    (s.external t).2.cursor.ahead.length < s.cursor.ahead.length := by
  have lt := Parse.length_external h
  unfold external
  split
  · rename_i eq
    rw [eq] at lt
    rw [cursor_generateExternal]
    exact lt
  · rename_i eq
    rw [eq] at lt
    exact Nat.lt_of_le_of_lt (length_advance_le _) lt

theorem length_expression (t : Target σ V F) {s : Session σ V} (h : s.cursor.ahead ≠ []) :
    (s.expression t).2.cursor.ahead.length < s.cursor.ahead.length := by
  unfold expression
  split
  · rename_i eq
    rw [cursor_generateExpression]
    exact Parse.length_topLevel eq
  · rename_i e c eq
    have le := (Parse.forward_topLevel s.table s.cursor).1.length_le
    rw [eq] at le
    by_cases empty : c.ahead = []
    · simp only [recover, Cursor.advance, empty, List.tail_nil, List.length_nil]
      exact List.length_pos_iff.2 h
    · exact Nat.lt_of_lt_of_le (length_advance_lt empty) le

/-- A step leaves fewer tokens than there were. -/
theorem length_step {t : Target σ V F} {s : Session σ V} {done : Outcome × Session σ V}
    (h : s.step t = some done) : done.2.cursor.ahead.length < s.cursor.ahead.length := by
  have going : s.cursor.kind ≠ .eof := by
    intro eq
    simp [step, eq] at h
  have some_token := ahead_ne_nil going
  unfold step at h
  split at h
  · exact absurd h (by simp)
  · cases h
    exact length_advance_lt some_token
  · cases h
    exact length_definition t some_token
  · cases h
    exact length_external t some_token
  · cases h
    exact length_expression t some_token

def steps (t : Target σ V F) (s : Session σ V) : List (Outcome × Session σ V) :=
  match h : s.step t with
  | none => []
  | some done =>
    have : done.2.cursor.ahead.length < s.cursor.ahead.length := length_step h
    done :: steps t done.2
termination_by s.cursor.ahead.length

def after (s : Session σ V) (done : List (Outcome × Session σ V)) : Session σ V :=
  match done.getLast? with
  | some last => last.2
  | none => s

end Session

end Reckon
