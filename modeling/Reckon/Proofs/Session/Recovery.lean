/-
  Recovery and progress.

  `Cursor.At` says at which place of a list of tokens a cursor stands, end-of-input tokens
  within the list included.  `Session.reading` is what a session reads next and `generate`
  what it does with a construct that was read; `step_eq` puts a step together of the two.

  The main statement is `progresses`, for every session, every list of tokens and every
  target: where a step goes on from each place, whether reading is refused, generation is
  refused or all is well, which class of error it reports, and that every step goes forward,
  so that a run comes to an end within the number of tokens.
-/
import Reckon.Assembly.Target
import Reckon.Proofs.Diagnostic.Severity
import Reckon.Proofs.Session.Reach
import Reckon.Session.Report

namespace Reckon

/-! ### Places in a list of tokens -/

namespace Cursor

variable {tokens : List Token} {i : Nat} {c c' : Cursor}

/-- The cursor stands on the token number `i`, and the last of the tokens closes its list. -/
def At (tokens : List Token) (i : Nat) (c : Cursor) : Prop :=
  c.ahead ++ [c.final] = tokens.drop i

theorem At.length (here : c.At tokens i) : i + c.ahead.length + 1 = tokens.length := by
  have lengths := congrArg List.length here
  simp only [List.length_append, List.length_cons, List.length_nil, List.length_drop] at lengths
  omega

/-- A cursor that has gone forward stands at a later place of the same list. -/
theorem At.forward (here : c.At tokens i) (left : c'.ahead <:+ c.ahead)
    (final : c'.final = c.final) : c'.At tokens (i + (c.ahead.length - c'.ahead.length)) := by
  obtain ⟨taken, eq⟩ := left
  have count : c.ahead.length - c'.ahead.length = taken.length := by
    rw [← eq, List.length_append, Nat.add_sub_cancel]
  unfold At
  rw [count, ← List.drop_drop, ← here, final, ← eq, List.append_assoc, List.drop_left]

/-- Moving past the last token stays on it. -/
theorem At.advance (here : c.At tokens i) :
    c.advance.At tokens (min (i + 1) (tokens.length - 1)) := by
  have length := here.length
  have left : c.advance.ahead <:+ c.ahead := List.tail_suffix c.ahead
  have moved := here.forward left rfl
  have place : i + (c.ahead.length - c.advance.ahead.length) =
      min (i + 1) (tokens.length - 1) := by
    simp only [Cursor.advance, List.length_tail]
    omega
  rwa [place] at moved

theorem At.advance_of_going (here : c.At tokens i) (going : c.kind ≠ .eof) :
    c.advance.At tokens (i + 1) := by
  have length := here.length
  have ahead := List.length_pos_iff.2 (Session.ahead_ne_nil going)
  have moved := here.advance
  rwa [Nat.min_eq_left (by omega)] at moved

/-- A list of tokens with an end of input where its last token ends, unless it has one. -/
def closed (file : String) (tokens : List Token) : List Token :=
  match tokens.getLast? with
  | none => [.endAt file 0]
  | some last =>
    if last.kind = .eof then tokens else tokens ++ [.endAt file last.span.stop.offset]

theorem at_ofTokens (file : String) (tokens : List Token) :
    (ofTokens file tokens).At (closed file tokens) 0 := by
  unfold ofTokens closed At
  rcases List.eq_nil_or_concat tokens with rfl | ⟨front, last, rfl⟩
  · rfl
  · by_cases kind : last.kind = .eof <;> simp [kind]

end Cursor

/-! ### One construct -/

inductive Construct where
  | definition (d : Definition)
  | external (p : Prototype)
  | expression (d : Definition)

def Construct.Blamed : Construct → Diagnostic → Prop
  | .definition d | .expression d => d.Blamed
  | .external p => p.Blamed

namespace Session

variable {σ V F : Type} {t : Target σ V F} {s : Session σ V}

def reading (s : Session σ V) : Parse Construct :=
  match s.cursor.kind with
  | .defKeyword => do return .definition (← Parse.definition s.table)
  | .externKeyword => do return .external (← Parse.external)
  | _ => do return .expression (← Parse.topLevel s.table)

def generate (t : Target σ V F) (s : Session σ V) : Construct → Outcome × Session σ V
  | .definition d => s.generateDefinition t d
  | .external p => s.generateExternal t p
  | .expression d => s.generateExpression t d

structure AtConstruct (s : Session σ V) : Prop where
  going : s.cursor.kind ≠ .eof
  begins : s.cursor.kind ≠ .char ';'

/-- A step reads one construct; if reading is refused it recovers, and otherwise it
    generates what was read. -/
theorem step_eq (t : Target σ V F) (here : s.AtConstruct) :
    s.step t = some (match s.reading.outcome s.cursor with
      | (.ok x, c) => generate t { s with cursor := c } x
      | (.error d, c) => s.recover d c) := by
  unfold step reading
  cases kind : s.cursor.kind with
  | eof => exact absurd kind here.going
  | defKeyword =>
    simp only [Session.definition, Parse.outcome_bind]
    rcases (Parse.definition s.table).outcome s.cursor with ⟨_ | _, _⟩ <;> rfl
  | externKeyword =>
    simp only [Session.external, Parse.outcome_bind]
    rcases Parse.external.outcome s.cursor with ⟨_ | _, _⟩ <;> rfl
  | number | identifier =>
    simp only [Session.expression, Parse.outcome_bind]
    rcases (Parse.topLevel s.table).outcome s.cursor with ⟨_ | _, _⟩ <;> rfl
  | char c =>
    have other : c ≠ ';' := fun eq => here.begins (by rw [kind, eq])
    simp only [Session.expression, Parse.outcome_bind]
    split
    · rename_i eq
      cases eq
    · rename_i eq
      cases eq
      exact absurd rfl other
    · rename_i eq
      cases eq
    · rename_i eq
      cases eq
    · rcases (Parse.topLevel s.table).outcome s.cursor with ⟨_ | _, _⟩ <;> rfl

theorem forward_reading (s : Session σ V) : s.reading.Forward := by
  unfold reading
  split
  · exact (forward_definition s.table).bind fun _ => Parse.forward_pure _
  · exact forward_external.bind fun _ => Parse.forward_pure _
  · exact (Parse.forward_topLevel s.table).bind fun _ => Parse.forward_pure _

theorem complains_reading (s : Session σ V) : s.reading.Complains := by
  unfold reading
  split
  · exact (Parse.complains_definition s.table).bind fun _ => Parse.complains_pure _
  · exact Parse.complains_external.bind fun _ => Parse.complains_pure _
  · exact (Parse.complains_topLevel s.table).bind fun _ => Parse.complains_pure _

theorem cursor_generate (t : Target σ V F) (s : Session σ V) (x : Construct) :
    (s.generate t x).2.cursor = s.cursor := by
  cases x with
  | definition d => exact cursor_generateDefinition t s d
  | external p => exact cursor_generateExternal t s p
  | expression d => exact cursor_generateExpression t s d

theorem blamed_of_generate {x : Construct} {d : Diagnostic}
    (failed : (s.generate t x).1 = .failed d) : x.Blamed d := by
  cases x with
  | definition x =>
    simp only [generate, generateDefinition] at failed
    split at failed
    · cases failed
    · rename_i generated
      cases failed
      exact Gen.blamed_definition t x _ _ _ generated
  | external p =>
    simp only [generate, generateExternal] at failed
    split at failed
    · cases failed
    · rename_i generated
      cases failed
      exact Gen.blamed_prototype t p _ _ _ generated
  | expression x =>
    simp only [generate, generateExpression] at failed
    split at failed
    · rename_i generated
      cases failed
      exact Gen.blamed_definition t x _ _ _ generated
    · split at failed
      rename_i result target ran
      rcases result with e | _ | evaluation
      · cases failed
        exact .prototype (.target e)
      · cases failed
      · cases failed

theorem severity_of_generate {x : Construct} {d : Diagnostic}
    (failed : (s.generate t x).1 = .failed d) : d.cause.severity = .semantic := by
  have blamed := blamed_of_generate failed
  cases x with
  | definition x => exact Definition.Blamed.severity blamed
  | external p => exact Prototype.Blamed.severity blamed
  | expression x => exact Definition.Blamed.severity blamed

/-! ### Where a step leads -/

theorem step_eq_none_iff : s.step t = none ↔ s.cursor.kind = .eof := by
  unfold step
  split
  · rename_i kind
    exact iff_of_true rfl kind
  all_goals
    rename_i kind
    exact iff_of_false (by simp) (by simp_all)

theorem going_of_step {done : Outcome × Session σ V} (stepped : s.step t = some done) :
    s.cursor.kind ≠ .eof := by
  intro ended
  rw [step_eq_none_iff.2 ended] at stepped
  cases stepped

theorem step_semicolon (t : Target σ V F) (semicolon : s.cursor.kind = .char ';') :
    s.step t = some (.skipped, { s with cursor := s.cursor.advance }) := by
  simp [step, semicolon]

theorem steps_of_none (ended : s.step t = none) : s.steps t = [] := by
  unfold steps
  split
  · rfl
  · rename_i done stepped
    rw [ended] at stepped
    cases stepped

theorem steps_of_some {done : Outcome × Session σ V} (stepped : s.step t = some done) :
    s.steps t = done :: done.2.steps t := by
  rw [steps]
  split
  · rename_i ended
    rw [stepped] at ended
    cases ended
  · rename_i done' stepped'
    rw [stepped] at stepped'
    cases stepped'
    rfl

/-- Steps are taken until none is left, with what is left to do becoming less. -/
theorem induction_on_steps {P : Session σ V → Prop} (t : Target σ V F)
    (ended : ∀ s, s.step t = none → P s)
    (stepped : ∀ s o s', s.step t = some (o, s') → P s' → P s) (s : Session σ V) : P s := by
  generalize size : s.cursor.ahead.length = k
  induction k using Nat.strongRecOn generalizing s with
  | ind k ih =>
    cases next : s.step t with
    | none => exact ended s next
    | some done => exact stepped s done.1 done.2 next (ih _ (size ▸ length_step next) done.2 rfl)

theorem after_cons (s : Session σ V) (done : Outcome × Session σ V)
    (more : List (Outcome × Session σ V)) :
    s.after (done :: more) = done.2.after more := by
  unfold after
  rw [List.getLast?_cons]
  cases more.getLast? <;> rfl

theorem length_steps_le (t : Target σ V F) (s : Session σ V) :
    (s.steps t).length ≤ s.cursor.ahead.length := by
  induction s using induction_on_steps t with
  | ended s ended =>
    rw [steps_of_none ended]
    exact Nat.zero_le _
  | stepped s o s' stepped ih =>
    have shorter : s'.cursor.ahead.length < s.cursor.ahead.length := length_step stepped
    rw [steps_of_some stepped, List.length_cons]
    exact Nat.lt_of_le_of_lt ih shorter

theorem step_after_steps (t : Target σ V F) (s : Session σ V) :
    (s.after (s.steps t)).step t = none := by
  induction s using induction_on_steps t with
  | ended s ended =>
    rw [steps_of_none ended]
    exact ended
  | stepped s o s' stepped ih =>
    rw [steps_of_some stepped, after_cons]
    exact ih

/-! ### Progress -/

structure Progresses (t : Target σ V F) (tokens : List Token) (i : Nat) (s : Session σ V) :
    Prop where
  /-- Nothing is done at an end of input, be it the last token or not, and only there. -/
  ends : s.step t = none ↔ s.cursor.kind = .eof
  idle : s.step t = none → s.run t = ⟨[], 0, s⟩
  skips : s.cursor.kind = .char ';' → ∃ c, c.At tokens (i + 1) ∧
    s.step t = some (.skipped, { s with cursor := c })
  /-- Where reading is refused at the token `k`, that is reported as a syntax error, the token
      is discarded unless it is the last, and nothing else changes. -/
  refused : s.AtConstruct → ∀ d c, s.reading.outcome s.cursor = (.error d, c) →
    ∃ k, i ≤ k ∧ c.At tokens k ∧ (∃ what, d = c.complaint what) ∧
      d.cause.severity = .syntactic ∧
      ∃ c', c'.At tokens (min (k + 1) (tokens.length - 1)) ∧
        s.step t = some (.failed d, { s with cursor := c' })
  /-- Where a construct was read up to the token `k`, the session goes on from there, and a
      failure is a semantic one. -/
  generated : s.AtConstruct → ∀ x c, s.reading.outcome s.cursor = (.ok x, c) →
    ∃ k, i < k ∧ c.At tokens k ∧
      ∃ o s', s.step t = some (o, s') ∧ s'.cursor = c ∧
        ∀ d, o = .failed d → d.cause.severity = .semantic
  advances : ∀ o s', s.step t = some (o, s') → ∃ j, i < j ∧ s'.cursor.At tokens j
  bounded : (s.steps t).length + i ≤ tokens.length - 1
  finishes : (s.run t).final.step t = none

variable {tokens : List Token} {i : Nat}

theorem step_refused (t : Target σ V F) (here : s.cursor.At tokens i) (atConstruct : s.AtConstruct)
    {d : Diagnostic} {c : Cursor} (read : s.reading.outcome s.cursor = (.error d, c)) :
    ∃ k, i ≤ k ∧ c.At tokens k ∧ (∃ what, d = c.complaint what) ∧
      d.cause.severity = .syntactic ∧
      ∃ c', c'.At tokens (min (k + 1) (tokens.length - 1)) ∧
        s.step t = some (.failed d, { s with cursor := c' }) := by
  obtain ⟨left, final⟩ := forward_reading s s.cursor
  rw [read] at left final
  obtain ⟨what, complaint⟩ := complains_reading s s.cursor d c read
  have stands := here.forward left final
  refine ⟨_, Nat.le_add_right i _, stands, ⟨what, complaint⟩, ?_, c.advance, stands.advance, ?_⟩
  · rw [complaint]
    exact c.severity_complaint what
  · rw [step_eq t atConstruct, read]
    rfl

theorem step_generated (t : Target σ V F) (here : s.cursor.At tokens i)
    (atConstruct : s.AtConstruct) {x : Construct} {c : Cursor}
    (read : s.reading.outcome s.cursor = (.ok x, c)) :
    ∃ k, i < k ∧ c.At tokens k ∧
      ∃ o s', s.step t = some (o, s') ∧ s'.cursor = c ∧
        ∀ d, o = .failed d → d.cause.severity = .semantic := by
  obtain ⟨left, final⟩ := forward_reading s s.cursor
  rw [read] at left final
  have stepped := step_eq t atConstruct
  rw [read] at stepped
  have cursor := cursor_generate t { s with cursor := c } x
  have shorter := length_step stepped
  simp only [cursor] at shorter
  refine ⟨_, ?_, here.forward left final, _, _, stepped, cursor, ?_⟩
  · omega
  · intro d failed
    exact severity_of_generate failed

theorem step_advances (here : s.cursor.At tokens i) {o : Outcome} {s' : Session σ V}
    (stepped : s.step t = some (o, s')) : ∃ j, i < j ∧ s'.cursor.At tokens j := by
  have going := going_of_step stepped
  by_cases semicolon : s.cursor.kind = .char ';'
  · rw [step_semicolon t semicolon] at stepped
    cases stepped
    exact ⟨i + 1, Nat.lt_succ_self i, here.advance_of_going going⟩
  · have atConstruct : s.AtConstruct := ⟨going, semicolon⟩
    rcases read : s.reading.outcome s.cursor with ⟨d | x, c⟩
    · obtain ⟨k, le, stands, -, -, c', stands', refused⟩ := step_refused t here atConstruct read
      rw [refused] at stepped
      cases stepped
      -- The token at hand is not the last one, and so there is one to go to.
      have length := here.length
      have ahead := List.length_pos_iff.2 (ahead_ne_nil going)
      exact ⟨_, by omega, stands'⟩
    · obtain ⟨k, lt, stands, o', s₁, generated, cursor, -⟩ :=
        step_generated t here atConstruct read
      rw [generated] at stepped
      cases stepped
      exact ⟨k, lt, cursor ▸ stands⟩

/-- Every session steps forward through its tokens, whatever they are, and with every table
    of operators and every target.  It stops at an end of input; it skips a semicolon; where
    reading is refused it reports a syntax error, discards the token at which reading stopped
    and leaves all else alone; and where a construct was read it goes on after it, whatever
    comes of generating and running it, with no failure but a semantic one.  So a run comes
    to its end in fewer steps than there are tokens. -/
theorem progresses (t : Target σ V F) (here : s.cursor.At tokens i) :
    Progresses t tokens i s where
  ends := step_eq_none_iff
  idle := by
    intro ended
    simp only [run, steps_of_none ended]
    rfl
  skips := by
    intro semicolon
    have going : s.cursor.kind ≠ .eof := by simp [semicolon]
    exact ⟨s.cursor.advance, here.advance_of_going going, step_semicolon t semicolon⟩
  refused := by
    intro atConstruct d c read
    exact step_refused t here atConstruct read
  generated := by
    intro atConstruct x c read
    exact step_generated t here atConstruct read
  advances := by
    intro o s' stepped
    exact step_advances here stepped
  bounded := by
    have length := here.length
    have steps := length_steps_le t s
    omega
  finishes := step_after_steps t s

/-- A list with an end of input in its middle, and a definition that is cut short by it. -/
theorem progresses_over_inner_end :
    let token := fun kind text i => (⟨kind, text, .within "" i (i + 1)⟩ : Token)
    let tokens := [token .defKeyword "def" 0, token .identifier "f" 1, token .eof "EOF" 2,
      token (.char ';') ";" 3]
    let s : Session Assembly Value := .ofCursor (.ofTokens "" tokens) .standard (.empty "" 256) {}
    Progresses Assembly.target (Cursor.closed "" tokens) 0 s := by
  intro token tokens s
  exact progresses Assembly.target (Cursor.at_ofTokens "" tokens)

end Session

end Reckon
