/-
  Sources taken together and one after the other.

  A semicolon on a line of its own keeps what comes before it from what comes after.  A
  session over the first part does before the semicolon what it does by itself, unless it
  complains of the end of its source (`run_before`), and one over the second part does after
  the semicolon what it does by itself, with places that stand further on (`run_moved`).
  Between them nothing is handed over but the target.

  The main statement is `batch_agrees`.
-/
import Reckon.Proofs.Generate.Relocation
import Reckon.Proofs.Grammar.Separation
import Reckon.Proofs.Session.Pointing

namespace Reckon

def Outcome.moved (n : Nat) : Outcome → Outcome
  | .failed d => .failed (d.moved n)
  | o => o

def Construct.moved (n : Nat) : Construct → Construct
  | .definition d => .definition (d.moved n)
  | .external p => .external (p.moved n)
  | .expression d => .expression (d.moved n)

namespace Session

variable {σ V F : Type} {t : Target σ V F} {s s' : Session σ V} {o : Outcome}
variable {c d : Cursor} {source : String} {n : Nat}

/-! ### Outcomes and the end of a run -/

def outcomes (t : Target σ V F) (s : Session σ V) : List Outcome := (s.steps t).map (·.1)

def final (t : Target σ V F) (s : Session σ V) : Session σ V := s.after (s.steps t)

theorem outcomes_of_none (ended : s.step t = none) : s.outcomes t = [] := by
  rw [outcomes, steps_of_none ended, List.map_nil]

theorem outcomes_of_some (stepped : s.step t = some (o, s')) :
    s.outcomes t = o :: s'.outcomes t := by
  rw [outcomes, steps_of_some stepped, List.map_cons]
  rfl

theorem final_of_none (ended : s.step t = none) : s.final t = s := by
  rw [final, steps_of_none ended]
  rfl

theorem final_of_some (stepped : s.step t = some (o, s')) : s.final t = s'.final t := by
  rw [final, steps_of_some stepped, after_cons]
  rfl

/-! ### What a step hands on -/

structure Carries (s s' : Session σ V) : Prop where
  table : s'.table = s.table
  settings : s'.settings = s.settings
  scope : s.generator.scope = [] → s'.generator.scope = []

namespace Carries

theorem refl (s : Session σ V) : s.Carries s := ⟨rfl, rfl, id⟩

theorem trans {u : Session σ V} (first : s.Carries s') (second : s'.Carries u) : s.Carries u :=
  ⟨second.table.trans first.table, second.settings.trans first.settings,
    second.scope ∘ first.scope⟩

end Carries

theorem carries_generate (t : Target σ V F) (s : Session σ V) (x : Construct) :
    s.Carries (s.generate t x).2 := by
  cases x with
  | definition d =>
    have scope := Gen.scope_definition t d (g := s.generator)
    simp only [generate, generateDefinition]
    split
    all_goals
      rename_i generated
      rw [generated] at scope
      exact ⟨rfl, rfl, scope⟩
  | external p =>
    have scope := Gen.scope_prototype t p s.generator
    simp only [generate, generateExternal]
    split
    all_goals
      rename_i generated
      rw [generated] at scope
      exact ⟨rfl, rfl, scope.trans⟩
  | expression d =>
    have scope := Gen.scope_definition t d (g := s.generator)
    simp only [generate, generateExpression]
    split
    all_goals
      rename_i generated
      rw [generated] at scope
      exact ⟨rfl, rfl, scope⟩

theorem carries_step (stepped : s.step t = some (o, s')) : s.Carries s' := by
  by_cases semicolon : s.cursor.kind = .char ';'
  · rw [step_semicolon t semicolon] at stepped
    cases stepped
    exact ⟨rfl, rfl, id⟩
  rw [step_eq t ⟨going_of_step stepped, semicolon⟩] at stepped
  rcases read : s.reading.outcome s.cursor with ⟨e | x, c⟩ <;> rw [read] at stepped
  · cases stepped
    exact ⟨rfl, rfl, id⟩
  · have carries := carries_generate t { s with cursor := c } x
    simp only [Option.some.injEq] at stepped
    rw [stepped] at carries
    exact ⟨carries.table, carries.settings, carries.scope⟩

theorem carries_final (t : Target σ V F) (s : Session σ V) : s.Carries (s.final t) := by
  induction s using induction_on_steps t with
  | ended s ended =>
    rw [final_of_none ended]
    exact .refl s
  | stepped s o s' stepped ih =>
    rw [final_of_some stepped]
    exact (carries_step stepped).trans ih

/-! ### The same session elsewhere -/

def placed (s : Session σ V) (c : Cursor) (source : String) : Session σ V :=
  { s with cursor := c, source }

theorem generate_placed (t : Target σ V F) (s : Session σ V) (x : Construct) (c : Cursor)
    (source : String) :
    (s.placed c source).generate t x =
      ((s.generate t x).1, (s.generate t x).2.placed c source) := by
  cases x with
  | definition d =>
    simp only [generate, generateDefinition, placed]
    rcases (Gen.definition t d).outcome s.generator with ⟨e | f, g⟩ <;> rfl
  | external p =>
    simp only [generate, generateExternal, placed]
    rcases (Gen.prototype t p).outcome s.generator with ⟨e | f, g⟩ <;> rfl
  | expression d =>
    simp only [generate, generateExpression, placed]
    rcases (Gen.definition t d).outcome s.generator with ⟨e | f, g⟩ <;> rfl

def conclude (t : Target σ V F) (s : Session σ V) :
    Except Diagnostic Construct × Cursor → Outcome × Session σ V
  | (.ok x, c) => generate t { s with cursor := c } x
  | (.error e, c) => s.recover e c

theorem step_conclude (t : Target σ V F) (here : s.AtConstruct) :
    s.step t = some (s.conclude t (s.reading.outcome s.cursor)) := by
  rw [step_eq t here]
  rcases s.reading.outcome s.cursor with ⟨e | x, c⟩ <;> rfl

theorem conclude_placed (t : Target σ V F) (s : Session σ V) (x : Construct) (c c' : Cursor)
    (source : String) : (s.placed c' source).conclude t (.ok x, c) =
      ((s.generate t x).1, (s.generate t x).2.placed c source) :=
  generate_placed t s x c source

theorem conclude_ok (t : Target σ V F) (s : Session σ V) (x : Construct) (c : Cursor) :
    s.conclude t (.ok x, c) = ((s.generate t x).1, (s.generate t x).2.placed c s.source) :=
  conclude_placed t s x c s.cursor s.source

theorem reading_placed (same : c.kind = s.cursor.kind) :
    (s.placed c source).reading = s.reading := by
  unfold reading placed
  rw [same]

/-! ### Before a separator -/

theorem sameBefore_reading (separated : d.Separated s.table) (more : s.cursor.ahead ≠ []) :
    s.reading.SameBefore d s.cursor := by
  unfold reading
  split
  · exact (Parse.sameBefore_definition separated more).bind fun _ c => Parse.sameBefore_pure _ c
  · exact (Parse.sameBefore_external separated more).bind fun _ c => Parse.sameBefore_pure _ c
  · exact (Parse.sameBefore_topLevel separated _).bind fun _ c => Parse.sameBefore_pure _ c

/-- Before a separator a session does what it does by itself, but for a complaint of the end
    of its tokens. -/
theorem step_before (separated : d.Separated s.table) (source : String)
    (stepped : s.step t = some (o, s'))
    (inside : ∀ e, o = .failed e → e.cause.severity = .syntactic →
      e.position ≠ s.cursor.final.span.start) :
    (s.placed (s.cursor.before d) source).step t =
      some (o, s'.placed (s'.cursor.before d) source) := by
  have going := going_of_step stepped
  have more := ahead_ne_nil going
  have kind : (s.cursor.before d).kind = s.cursor.kind := Cursor.kind_before more
  by_cases semicolon : s.cursor.kind = .char ';'
  · rw [step_semicolon t semicolon] at stepped
    have semicolon' : (s.placed (s.cursor.before d) source).cursor.kind = .char ';' :=
      kind.trans semicolon
    cases stepped
    rw [step_semicolon t semicolon']
    simp only [placed, Cursor.advance_before more]
  have here : s.AtConstruct := ⟨going, semicolon⟩
  have there : (s.placed (s.cursor.before d) source).AtConstruct := by
    constructor
    · exact fun ended => going (kind.symm.trans ended)
    · exact fun begins => semicolon (kind.symm.trans begins)
  rw [step_conclude t here] at stepped
  rw [step_conclude t there, reading_placed kind]
  have final := (forward_reading s s.cursor).2
  have complains := complains_reading s s.cursor
  have same : (∀ e c, s.reading.outcome s.cursor = (.error e, c) → c.ahead ≠ []) →
      s.reading.outcome (s.placed (s.cursor.before d) source).cursor =
        ((s.reading.outcome s.cursor).1, (s.reading.outcome s.cursor).2.before d) :=
    sameBefore_reading separated more
  rcases read : s.reading.outcome s.cursor with ⟨e | x, c⟩ <;> rw [read] at stepped final same
  · cases stepped
    -- The complaint is not one of the end, and so a token is left to be discarded.
    have left : c.ahead ≠ [] := by
      intro ended
      obtain ⟨what, complaint⟩ := complains e c read
      refine inside e rfl ?_ ?_
      · rw [complaint]
        exact c.severity_complaint what
      · rw [complaint, ← final]
        simp [Cursor.complaint, Cursor.position, Cursor.current, ended]
    have whole := same fun e' c' refused => by
      cases refused
      exact left
    rw [whole]
    simp only [conclude, recover, placed, Cursor.advance_before left]
  · rw [conclude_ok] at stepped
    have whole := same fun e' c' refused => by cases refused
    simp only at whole
    rw [whole, conclude_placed]
    cases stepped
    rfl

theorem run_before (t : Target σ V F) (source : String) (s : Session σ V)
    (separated : d.Separated s.table) (whole : ∀ u ∈ s.cursor.ahead, u.kind ≠ .eof)
    (inside : ∀ e ∈ s.failures t, e.cause.severity = .syntactic →
      e.position ≠ s.cursor.final.span.start) :
    (s.placed (s.cursor.before d) source).outcomes t =
        s.outcomes t ++ ((s.final t).placed d source).outcomes t ∧
      (s.placed (s.cursor.before d) source).final t = ((s.final t).placed d source).final t := by
  induction s using induction_on_steps t with
  | ended s ended =>
    have empty : s.cursor.ahead = [] := by
      by_contra more
      obtain ⟨u, rest, ahead⟩ := List.exists_cons_of_ne_nil more
      have kind : u.kind = .eof := by
        have hand := step_eq_none_iff.1 ended
        simpa [Cursor.kind, Cursor.current, ahead] using hand
      exact whole u (by simp [ahead]) kind
    rw [outcomes_of_none ended, final_of_none ended, Cursor.before_of_nil empty]
    exact ⟨rfl, rfl⟩
  | stepped s o s' stepped ih =>
    obtain ⟨taken, ahead, final, -⟩ := passes_of_act (.step stepped)
    have first : ∀ e, o = .failed e → e ∈ s.failures t := by
      intro e failed
      rcases failures_of_some stepped with ⟨fine, -⟩ | ⟨d, rfl, more⟩
      · exact absurd failed (fine e)
      · cases failed
        rw [more]
        exact List.mem_cons_self
    have before := step_before separated source stepped fun e failed => inside e (first e failed)
    have later : s'.failures t ⊆ s.failures t := by
      rcases failures_of_some stepped with ⟨-, same⟩ | ⟨d, -, more⟩
      · rw [same]
        exact List.Subset.refl _
      · rw [more]
        exact List.subset_cons_self d _
    obtain ⟨rest, last⟩ := ih ((carries_step stepped).table ▸ separated)
      (fun u member => whole u (by rw [ahead]; exact List.mem_append_right _ member))
      (fun e member => by rw [final]; exact inside e (later member))
    rw [outcomes_of_some before, outcomes_of_some stepped, final_of_some before,
      final_of_some stepped, rest, last]
    exact ⟨rfl, rfl⟩

/-! ### Further on -/

theorem generate_moved (t : Target σ V F) (s : Session σ V) (x : Construct) :
    s.generate t (x.moved n) = ((s.generate t x).1.moved n, (s.generate t x).2) := by
  cases x with
  | definition d =>
    have generated := Gen.moves_definition (n := n) t d s.generator
    simp only [Construct.moved, generate, generateDefinition, generated]
    rcases (Gen.definition t d).outcome s.generator with ⟨e | f, g⟩ <;> rfl
  | external p =>
    have generated := Gen.moves_prototype (n := n) t p s.generator
    simp only [Construct.moved, generate, generateExternal, generated]
    rcases (Gen.prototype t p).outcome s.generator with ⟨e | f, g⟩ <;> rfl
  | expression d =>
    have generated := Gen.moves_definition (n := n) t d s.generator
    simp only [Construct.moved, generate, generateExpression, generated]
    rcases (Gen.definition t d).outcome s.generator with ⟨e | f, g⟩
    · rfl
    · simp only [Gen.movedResult, mapError_ok]
      split
      rename_i result target ran
      rcases result with e | _ | evaluation <;> rfl

theorem moves_reading (s : Session σ V) :
    Parse.Moves n (Construct.moved n) s.reading s.reading := by
  unfold reading
  split
  · exact (Parse.moves_definition s.table).bind fun d => Parse.moves_pure _ (Construct.definition d)
  · exact Parse.moves_external.bind fun p => Parse.moves_pure _ (Construct.external p)
  · exact (Parse.moves_topLevel s.table).bind fun d => Parse.moves_pure _ (Construct.expression d)

theorem step_moved (n : Nat) (source : String) (stepped : s.step t = some (o, s')) :
    (s.placed (s.cursor.moved n) source).step t =
      some (o.moved n, s'.placed (s'.cursor.moved n) source) := by
  have going := going_of_step stepped
  have kind : (s.cursor.moved n).kind = s.cursor.kind := s.cursor.kind_moved
  by_cases semicolon : s.cursor.kind = .char ';'
  · rw [step_semicolon t semicolon] at stepped
    have semicolon' : (s.placed (s.cursor.moved n) source).cursor.kind = .char ';' :=
      kind.trans semicolon
    cases stepped
    rw [step_semicolon t semicolon']
    simp only [placed, Cursor.advance_moved, Outcome.moved]
  have here : s.AtConstruct := ⟨going, semicolon⟩
  have there : (s.placed (s.cursor.moved n) source).AtConstruct := by
    constructor
    · exact fun ended => going (kind.symm.trans ended)
    · exact fun begins => semicolon (kind.symm.trans begins)
  rw [step_conclude t here] at stepped
  rw [step_conclude t there, reading_placed kind]
  have moved : s.reading.outcome (s.placed (s.cursor.moved n) source).cursor =
      Parse.movedResult n (Construct.moved n) (s.reading.outcome s.cursor) :=
    moves_reading s s.cursor
  rw [moved]
  generalize s.reading.outcome s.cursor = came at stepped ⊢
  obtain ⟨e | x, c⟩ := came
  · cases stepped
    simp only [Parse.movedResult, Except.map, mapError_error, conclude, recover, placed,
      Cursor.advance_moved, Outcome.moved]
  · rw [conclude_ok] at stepped
    simp only [Parse.movedResult, Except.map, mapError_ok]
    rw [conclude_placed, generate_moved]
    cases stepped
    rfl

theorem run_moved (t : Target σ V F) (n : Nat) (source : String) (s : Session σ V) :
    (s.placed (s.cursor.moved n) source).outcomes t = (s.outcomes t).map (Outcome.moved n) ∧
      ((s.placed (s.cursor.moved n) source).final t).generator = (s.final t).generator := by
  induction s using induction_on_steps t with
  | ended s ended =>
    have ended' : (s.placed (s.cursor.moved n) source).step t = none := by
      rw [step_eq_none_iff] at ended ⊢
      exact s.cursor.kind_moved.trans ended
    rw [outcomes_of_none ended, outcomes_of_none ended', final_of_none ended,
      final_of_none ended']
    exact ⟨rfl, rfl⟩
  | stepped s o s' stepped ih =>
    have further := step_moved n source stepped
    rw [outcomes_of_some further, outcomes_of_some stepped, final_of_some further,
      final_of_some stepped, List.map_cons, ih.1]
    exact ⟨rfl, ih.2⟩

/-! ### Two sources -/

/-- The cursor on a semicolon after which a source stands, `n` bytes further on. -/
def afterSemicolon (n : Nat) (source file : String) : Cursor :=
  let rest := (Cursor.ofSource source file).moved n
  ⟨.semicolon file (n - 1) :: rest.ahead, rest.final, rest.final_kind⟩

theorem cursor_joined (a b file : String) :
    Cursor.ofSource (a ++ "\n;" ++ b) file =
      (Cursor.ofSource a file).before (afterSemicolon (byteLength a.toList + 2) b file) := by
  have text : (a ++ "\n;" ++ b).toList = a.toList ++ separated b.toList := by
    simp [String.toList_append, separated]
  obtain ⟨tokens, alone, joined⟩ := scanFrom_separated file 0 a.toList b.toList
  obtain ⟨more, others, -⟩ := scanned_pieces file 0 b.toList
  have ofA := Cursor.ofSource_eq alone
  have ofB := Cursor.ofSource_eq others
  have moved := scanFrom_moved (byteLength a.toList + 2) file 0 b.toList
  rw [others, List.map_append, List.map_singleton, Token.endAt_moved] at moved
  rw [Nat.zero_add] at joined moved
  rw [moved, ← text] at joined
  have whole : tokenize (a ++ "\n;" ++ b) file =
      (tokens ++ .semicolon file (byteLength a.toList + 1) ::
        more.map (Token.moved (byteLength a.toList + 2))) ++
          [.endAt file (0 + byteLength b.toList + (byteLength a.toList + 2))] := by
    rw [tokenize, joined, List.append_assoc]
    rfl
  rw [Cursor.ofSource_eq whole, ofA, afterSemicolon, ofB]
  rfl

/-- After the semicolon a session is a new one on the same target, but for its place. -/
theorem step_afterSemicolon (t : Target σ V F) (b file source : String) {settings : Settings}
    (table : s.table = OperatorTable.standard.extend settings.operators)
    (same : s.settings = settings) (unbound : s.generator.scope = []) :
    let second : Session σ V :=
      ofCursor (.ofSource b file) .standard s.generator.target settings
    (s.placed (afterSemicolon n b file) source).step t =
      some (.skipped, second.placed (second.cursor.moved n) source) := by
  intro second
  have semicolon : (s.placed (afterSemicolon n b file) source).cursor.kind = .char ';' := rfl
  have generator : s.generator = ⟨s.generator.target, []⟩ := by rw [← unbound]
  rw [step_semicolon t semicolon]
  subst same
  simp only [second, placed, ofCursor, table, ← generator]
  rfl

/-- For every target and all settings in which a semicolon is no operator: if the session over
    the first source makes no complaint of its end, then over both sources with a newline and
    a semicolon between them a session comes to the outcomes of the first, a semicolon that is
    skipped, and the outcomes of a new session over the second source and what the first has
    made of the target.  In these the places stand further on by the first source and the two
    bytes after it.  What is made of the target is the same. -/
theorem batch_agrees (t : Target σ V F) (a b file : String) (target : σ) (settings : Settings)
    (separates : (OperatorTable.standard.extend settings.operators).operator? (.char ';') = none)
    (inside : ∀ e ∈ (ofSource a file target settings : Session σ V).failures t,
      e.cause.severity = .syntactic → e.position.offset ≠ byteLength a.toList) :
    let first : Session σ V := ofSource a file target settings
    let second : Session σ V :=
      ofCursor (.ofSource b file) .standard (first.final t).generator.target settings
    let whole : Session σ V := ofSource (a ++ "\n;" ++ b) file target settings
    whole.outcomes t = first.outcomes t ++
        .skipped :: (second.outcomes t).map (Outcome.moved (byteLength a.toList + 2)) ∧
      (whole.final t).generator.target = (second.final t).generator.target := by
  intro first second whole
  let n := byteLength a.toList + 2
  let d := afterSemicolon n b file
  have placed : whole = first.placed (first.cursor.before d) (a ++ "\n;" ++ b) := by
    have cursor := cursor_joined a b file
    simp only [whole, ofSource, ofCursor, Session.placed, cursor]
    rfl
  obtain ⟨tokens, eq, pieces, -⟩ := scanned_pieces file 0 a.toList
  have cursor : first.cursor = ⟨tokens, .endAt file (0 + byteLength a.toList), rfl⟩ :=
    Cursor.ofSource_eq eq
  have separated : d.Separated first.table := by
    intro u head
    cases head
    exact ⟨nofun, nofun, nofun, nofun, nofun, separates⟩
  obtain ⟨outcomes, final⟩ := run_before t (a ++ "\n;" ++ b) first separated
    (by
      rw [cursor]
      exact fun u member => (pieces u member).notEnd)
    (by
      intro e member syntactic place
      rw [cursor] at place
      refine inside e member syntactic ?_
      rw [place]
      exact Nat.zero_add _)
  have carries := carries_final t first
  have skipped := step_afterSemicolon (n := n) t b file (a ++ "\n;" ++ b) carries.table
    carries.settings (carries.scope rfl)
  obtain ⟨further, last⟩ := run_moved t n (a ++ "\n;" ++ b) second
  rw [placed, outcomes, final, outcomes_of_some skipped, final_of_some skipped, further, last]
  exact ⟨rfl, rfl⟩

/-- The first source ends in a bracket that is complained of, and the second uses a name that
    was bound in the first. -/
theorem batch_agrees_after_complaint :
    let first : Session Assembly Value := ofSource "def f(x) x )" "" (.empty "" 8) {}
    let second : Session Assembly Value := ofCursor (.ofSource "f(x)" "") .standard
      (first.final Assembly.target).generator.target {}
    let whole : Session Assembly Value := ofSource "def f(x) x )\n;f(x)" "" (.empty "" 8) {}
    first.failures Assembly.target = [⟨.missing .operand ")", ⟨11, ""⟩⟩] ∧
      whole.outcomes Assembly.target = first.outcomes Assembly.target ++
        .skipped :: (second.outcomes Assembly.target).map (Outcome.moved 14) ∧
      (whole.final Assembly.target).generator.target =
        (second.final Assembly.target).generator.target := by
  intro first second whole
  have failures : first.failures Assembly.target = [⟨.missing .operand ")", ⟨11, ""⟩⟩] := by
    unfold first
    decide +kernel
  refine ⟨failures, batch_agrees Assembly.target "def f(x) x )" "f(x)" "" (.empty "" 8) {} rfl ?_⟩
  intro e member _
  change e ∈ first.failures Assembly.target at member
  rw [failures, List.mem_singleton] at member
  rw [member]
  decide

end Session

end Reckon
