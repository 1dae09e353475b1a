/-
  Compilation preserves meaning.

  A `History` is a run together with what names mean after each act: the environment learns
  a definition when it succeeds, and a name that is declared only.  Along every history the
  environment describes the assembly, whatever failed on the way.

  The main statement is `expression_preserves_meaning`: in every run over a source, a bare
  expression that generates has the outcome that interpreting its tree in the environment
  of that moment has, its value, the text written and its failures included.
-/
import Reckon.Proofs.Assembly.Built
import Reckon.Proofs.Meaning.Description
import Reckon.Proofs.Session.Atomicity

namespace Reckon

namespace Session

open Assembly

section Settings

variable {σ V F : Type} {t : Target σ V F} {s s' : Session σ V} {o : Outcome}

/-! ### Histories -/

/-- What names mean after an act that had the outcome, if they meant `env` before: a
    definition that was read and generated gives its name a meaning, and a declaration
    makes its name a function of the host unless it means something. -/
def learn (s : Session σ V) (env : Environment) : Outcome → Environment
  | .definition _ _ =>
    match ((Parse.definition s.table).outcome s.cursor).1 with
    | .ok d => env.define d.proto.name (.defined d.proto.params d.body)
    | .error _ => env
  | .external name _ => if (env name).isSome then env else env.define name .external
  | _ => env

/-- Acts lead from `s₀` to a session, and to what names mean then. -/
inductive History (t : Target σ V F) (s₀ : Session σ V) : Session σ V → Environment → Prop where
  | start : History t s₀ s₀ fun _ => none
  | act {s s' : Session σ V} {env : Environment} {o : Outcome} (before : History t s₀ s env)
    (act : Act t s (o, s')) : History t s₀ s' (s.learn env o)

theorem History.reaches {s₀ : Session σ V} {env : Environment} (history : History t s₀ s env) :
    Reaches t s₀ s := by
  induction history with
  | start => exact .start
  | act _ act ih => exact .act ih act

/-! ### What acts leave alone -/

theorem settings_generateDefinition (t : Target σ V F) (s : Session σ V) (d : Definition) :
    (s.generateDefinition t d).2.settings = s.settings := by
  unfold generateDefinition
  split <;> rfl

theorem settings_generateExternal (t : Target σ V F) (s : Session σ V) (p : Prototype) :
    (s.generateExternal t p).2.settings = s.settings := by
  unfold generateExternal
  split <;> rfl

theorem settings_generateExpression (t : Target σ V F) (s : Session σ V) (d : Definition) :
    (s.generateExpression t d).2.settings = s.settings := by
  unfold generateExpression
  split <;> rfl

theorem settings_of_act {done : Outcome × Session σ V} (act : Act t s done) :
    done.2.settings = s.settings := by
  cases handles_of_act act with
  | skipped => rfl
  | refused left => rfl
  | definition read => exact settings_generateDefinition t _ _
  | external read => exact settings_generateExternal t _ _
  | expression read => exact settings_generateExpression t _ _

theorem settings_of_reaches (reaches : Reaches t s s') : s'.settings = s.settings := by
  induction reaches with
  | start => rfl
  | act _ act ih => exact (settings_of_act act).trans ih

theorem learn_generateExpression (t : Target σ V F) (s u : Session σ V) (d : Definition)
    (env : Environment) : u.learn env (s.generateExpression t d).1 = env := by
  rcases outcome_generateExpression t s d with ⟨e, eq⟩ | ⟨code, value, output, eq⟩ <;>
    rw [eq] <;> rfl

theorem step_of_topLevel {d : Definition}
    (read : ((Parse.topLevel s.table).outcome s.cursor).1 = .ok d) :
    s.step t = some (s.expression t) := by
  have first : ∃ u rest, s.cursor.ahead = u :: rest ∧ (Reader.shiftOperand [] [] u).isSome := by
    rw [Parse.topLevel, Parse.outcome_bind, Parse.expression, Parse.outcome_read] at read
    cases ahead : s.cursor.ahead with
    | nil => simp [ahead, Reader.run, Reader.start, Reader.settle] at read
    | cons u rest =>
      cases shifted : Reader.shiftOperand [] [] u with
      | none =>
        simp [ahead, Reader.run, Reader.start, Reader.shift, shifted, Reader.settle]
          at read
      | some r => exact ⟨u, rest, rfl, by rw [shifted]; rfl⟩
  obtain ⟨u, rest, ahead, begins⟩ := first
  have kind : s.cursor.kind = u.kind := by simp [Cursor.kind, Cursor.current, ahead]
  unfold Reader.shiftOperand at begins
  unfold step
  rw [kind]
  split at begins
  · rename_i identifier
    rw [identifier]
  · rename_i number
    rw [number]
  · rename_i bracket
    rw [bracket]
    rfl
  · cases begins

end Settings

/-! ### The invariant -/

section Described

variable {σ : Type} {t : Target σ Value Handle} {view : σ → Assembly}
variable {s s₀ : Session σ Value} {env : Environment}

/-- An act keeps the description if the environment learns from it. -/
theorem describes_of_act (ht : t.Unreliable view) (describes : env.Describes (view s.generator.target))
    (numbered : (view s.generator.target).Numbered)
    (consistent : (view s.generator.target).Consistent) (named : s.cursor.Named)
    {done : Outcome × Session σ Value} (act : Act t s done) :
    (s.learn env done.1).Describes (view done.2.generator.target) := by
  cases handles_of_act act with
  | skipped => exact describes
  | refused left => exact describes
  | @definition d c read =>
    obtain ⟨-, defined⟩ := Gen.definition_outcome ht d s.generator
    unfold generateDefinition
    split
    · rename_i generated
      rw [generated] at defined
      simp only [learn, read]
      exact describes.defines defined numbered consistent
    · rename_i generated
      rw [generated] at defined
      exact describes.keeps defined (defined.consistent consistent).unique
  | @external p c read =>
    obtain ⟨-, declared⟩ := Gen.prototype_outcome ht p s.generator
    unfold generateExternal
    split
    · rename_i generated
      rw [generated] at declared
      exact describes.declares declared (Parse.name_ne_of_external named read) consistent
    · rename_i generated
      rw [generated] at declared
      simp only at declared ⊢
      rw [declared]
      exact describes
  | @expression d c read =>
    have nameless : d.proto.name = "" := by rw [Parse.name_of_topLevel read]; rfl
    have keeps := generateExpression_keeps ht { s with cursor := c } nameless
    rw [learn_generateExpression]
    exact describes.keeps keeps (keeps.consistent consistent).unique

theorem numbered_of_reaches (ht : t.Unreliable view) (fresh : s₀.Fresh view)
    (reaches : Reaches t s₀ s) : (view s.generator.target).Numbered := by
  induction reaches with
  | start =>
    obtain ⟨moduleName, depthLimit, target⟩ := fresh.target
    rw [target]
    exact numbered_empty moduleName depthLimit
  | act _ act ih => exact (effect_of_act ht act).1.numbered ih

theorem depthLimit_of_reaches (ht : t.Unreliable view) (reaches : Reaches t s₀ s) :
    (view s.generator.target).depthLimit = (view s₀.generator.target).depthLimit := by
  induction reaches with
  | start => rfl
  | act _ act ih => exact (effect_of_act ht act).1.depthLimit_eq.trans ih

/-- Along every history the environment describes the assembly. -/
theorem describes_of_history (ht : t.Unreliable view) (fresh : s₀.Fresh view)
    (named : s₀.cursor.Named) (history : History t s₀ s env) :
    env.Describes (view s.generator.target) := by
  induction history with
  | start =>
    obtain ⟨moduleName, depthLimit, target⟩ := fresh.target
    rw [target]
    exact Environment.describes_empty moduleName depthLimit
  | act before act ih =>
    exact describes_of_act ht ih (numbered_of_reaches ht fresh before.reaches)
      (consistent_of_reaches ht fresh before.reaches) (named_of_reaches named before.reaches) act

end Described

/-! ### Bare expressions -/

section Evaluation

variable {a c : Assembly} {d : Definition} {h : Handle} {env : Environment}

/-- Running the routine of a bare expression comes to the same as interpreting the
    expression. -/
theorem evaluate_agrees (describes : env.Describes a) (numbered : a.Numbered)
    (consistent : a.Consistent) (defines : a.Defines d h c)
    (anonymous : d.proto = .anonymous d.body.span) :
    Agrees (env.evaluate a.depthLimit d.body)
      ((c.evaluate h).map fun evaluation => (evaluation.value, evaluation.output)) := by
  obtain ⟨r, hr, name, computes⟩ := defines.computes numbered consistent.unique
  have nameless : r.name = "" := by rw [name, anonymous]; rfl
  -- The new routine has no name, so the environment describes the assembly still.
  have after : env.Describes c := by
    refine describes.grows defines.grows (defines.consistent consistent).unique ?_
    intro k s hs named
    have ne : k ≠ h := by
      rintro rfl
      rw [hr] at hs
      cases hs
      exact named nameless
    obtain ⟨declares, here, -, -, -, rfl, -⟩ := defines
    rw [routine?_fill here, if_neg ne] at hs
    exact (declares.elsewhere ne).symm.trans hs
  have closed : d.proto.params = [] := by rw [anonymous]; rfl
  cases computes with
  | defined count same code has =>
    have noParams : r.params = [] :=
      List.eq_nil_of_length_eq_zero (count.symm.trans (by rw [closed]; rfl))
    have given : r.values.length = ([] : List Float).length := by
      rw [← same.count, noParams]
      rfl
    have run : (c.evaluate h).map (fun evaluation => (evaluation.value, evaluation.output)) =
        (c.callRoutine c.depthLimit h []).run "" := by
      simp only [evaluate, hr, noParams, List.isEmpty_nil, if_true]
      cases (c.callRoutine c.depthLimit h []).run "" <;> rfl
    rw [run, ← defines.depthLimit_eq, Environment.evaluate]
    generalize limit : c.depthLimit = n
    cases n with
    | zero =>
      rw [callRoutine, limit]
      exact .tooDeep 0
    | succ left =>
      have sum : 1 + left = c.depthLimit := by omega
      have body := code.matches_body r.name (after.call_matches sum)
        (count.trans same.count) given same.distinct same.below
      rw [limit, closed] at body
      rw [callRoutine, hr]
      simp only [has]
      exact body ""

/-- What a bare expression that generates comes to when it is run. -/
theorem outcome_of_generates {s : Session Assembly Value} {g : Generator Assembly Value}
    (evaluates : s.settings.evaluate = true)
    (generated : (Gen.definition Assembly.target d).outcome s.generator = (.ok h, g)) :
    ∃ code, (s.generateExpression Assembly.target d).1 =
      match g.target.evaluate h with
      | .ok evaluation => .expression code (some evaluation.value) evaluation.output
      | .error fault => .failed ⟨fault.toTargetError.toCause, d.proto.span.start⟩ := by
  have run : (Assembly.target.evaluate h).run.run g.target =
      (((g.target.evaluate h).map some).mapError Fault.toTargetError, g.target) :=
    run_evaluated g.target h
  refine ⟨Assembly.target.print g.target h, ?_⟩
  unfold generateExpression
  rw [generated]
  simp only [evaluates, if_true, run]
  cases g.target.evaluate h <;> rfl

end Evaluation

/-! ### The main statement -/

/-- The environment has a meaning for the names of the live functions and no others, and
    those without a body are functions of the host in it. -/
structure Covers (env : Environment) (live : List (Handle × Routine)) : Prop where
  names : ∀ name, (env name).isSome ↔ ∃ entry ∈ live, entry.2.name = name
  external : ∀ entry ∈ live, env entry.2.name = some .external ↔ entry.2.body = none

/-- The outcome is what the interpreter comes to: the value and the text written, or the
    complaint at `start` that there is none. -/
inductive Reports (start : Position) : Except Obstacle (Float × String) → Outcome → Prop where
  | value (x : Float) (written code : String) :
    Reports start (.ok (x, written)) (.expression code (some x) written)
  | tooDeep (limit : Nat) : Reports start (.error (.tooDeep limit))
    (.failed ⟨.evaluation ("maximum call depth of " ++ toString limit ++ " exceeded"), start⟩)
  | unresolved (name : String) (count : Nat) : Reports start (.error (.unresolved name count))
    (.failed ⟨.evaluation ("cannot resolve external function " ++ Text.quoted name ++
      " taking " ++ toString count ++ " arguments"), start⟩)

section Main

variable {env : Environment} {s : Session Assembly Value} {d : Definition} {h : Handle}

theorem covers_of_describes {a : Assembly} (describes : env.Describes a)
    (named : ∀ entry ∈ a.live, entry.2.name ≠ "") : Covers env a.live where
  names name := by
    constructor
    · intro known
      obtain ⟨h, r, hr, eq⟩ := describes.live name known
      exact ⟨(h, r), mem_live.2 hr, eq⟩
    · rintro ⟨entry, member, rfl⟩
      obtain ⟨m, known, -⟩ :=
        describes.computes entry.1 entry.2 (mem_live.1 member) (named entry member)
      rw [known]
      rfl
  external entry member := by
    obtain ⟨m, known, computes⟩ :=
      describes.computes entry.1 entry.2 (mem_live.1 member) (named entry member)
    rw [known]
    cases computes with
    | external bodiless => simp [bodiless]
    | defined count numbered code has => simp [has]

/-- In every run over a source, with any operator table and any limit of depth, whatever
    failed before: a bare expression that was read and generates is what the next step
    handles, and its outcome is that of interpreting its tree at depth 0.  The environment
    has the definition that each function's body was generated from, and has as functions
    of the host those that are only declared at that moment. -/
theorem expression_preserves_meaning {source file moduleName : String} {limit : Nat}
    {table : OperatorTable} {settings : Settings} (evaluates : settings.evaluate = true)
    (history : History Assembly.target
      (.ofCursor (.ofSource source file) table (.empty moduleName limit) settings) s env)
    (read : ((Parse.topLevel s.table).outcome s.cursor).1 = .ok d)
    (generates : ((Gen.definition Assembly.target d).outcome s.generator).1 = .ok h) :
    Covers env s.generator.target.live ∧
      s.step Assembly.target = some (s.expression Assembly.target) ∧
      Reports d.body.span.start (env.evaluate limit d.body)
        (s.expression Assembly.target).1 := by
  have ht := Assembly.unreliable_target
  have reaches := history.reaches
  have named := Cursor.named_ofSource source file
  have describes := describes_of_history ht ⟨rfl, _, _, rfl⟩ named history
  have limited : s.generator.target.depthLimit = limit := depthLimit_of_reaches ht reaches
  refine ⟨covers_of_describes describes
    (live_named_of_reaches ht ⟨rfl, _, _, rfl⟩ named reaches), step_of_topLevel read, ?_⟩
  -- The session handles what was read.
  rcases parsed : (Parse.topLevel s.table).outcome s.cursor with ⟨_, c⟩
  rw [parsed] at read
  cases read
  rcases generated : (Gen.definition Assembly.target d).outcome s.generator with ⟨_, g⟩
  rw [generated] at generates
  cases generates
  have anonymous := Parse.name_of_topLevel parsed
  have handled : s.expression Assembly.target =
      generateExpression Assembly.target { s with cursor := c } d := by
    unfold Session.expression
    rw [parsed]
  obtain ⟨code, outcome⟩ := outcome_of_generates (s := { s with cursor := c })
    ((congrArg Settings.evaluate (settings_of_reaches reaches)).trans evaluates) generated
  rw [handled, outcome]
  -- Running it comes to what interpreting it comes to.
  have defines := (Gen.definition_outcome ht d s.generator).2
  rw [generated] at defines
  have agrees := evaluate_agrees describes (numbered_of_reaches ht ⟨rfl, _, _, rfl⟩ reaches)
    (consistent_of_reaches ht ⟨rfl, _, _, rfl⟩ reaches) defines anonymous
  have start : d.proto.span.start = d.body.span.start := by rw [anonymous]; rfl
  simp only [id_eq, limited] at agrees
  rw [start]
  generalize env.evaluate limit d.body = meant at agrees ⊢
  cases ran : g.target.evaluate h with
  | ok evaluation =>
    rw [ran] at agrees
    cases agrees
    exact .value evaluation.value evaluation.output code
  | error fault =>
    rw [ran] at agrees
    cases agrees with
    | tooDeep limit => exact .tooDeep limit
    | unresolved name count => exact .unresolved name count

/-- A function that is called before it is completed, by one with a repeated parameter. -/
theorem expression_preserves_meaning_of_completed_callee :
    let s₀ : Session Assembly Value :=
      .ofCursor (.ofSource "extern g(x) def f(x x) g(x) def g(y) y+y f(1, 2)" "") .standard
        (.empty "" 256) {}
    let s := (((s₀.external Assembly.target).2.definition Assembly.target).2.definition
      Assembly.target).2
    ∃ env d, History Assembly.target s₀ s env ∧
      ((Parse.topLevel s.table).outcome s.cursor).1 = .ok d ∧
      Reports d.body.span.start (env.evaluate 256 d.body) (s.expression Assembly.target).1 := by
  intro s₀ s
  have generates : (((Parse.topLevel s.table).outcome s.cursor).1.toOption.any fun d =>
      ((Gen.definition Assembly.target d).outcome s.generator).1.isOk) = true := by
    unfold s s₀
    decide +kernel
  cases read : ((Parse.topLevel s.table).outcome s.cursor).1 with
  | error e =>
    rw [read] at generates
    cases generates
  | ok d =>
    rw [read] at generates
    change ((Gen.definition Assembly.target d).outcome s.generator).1.isOk = true at generates
    cases generated : ((Gen.definition Assembly.target d).outcome s.generator).1 with
    | error e =>
      rw [generated] at generates
      cases generates
    | ok h =>
      have history : History Assembly.target s₀ s _ :=
        .act (.act (.act .start .external) .definition) .definition
      exact ⟨_, d, history, rfl, (expression_preserves_meaning rfl history read generated).2.2⟩

end Main

end Session

end Reckon
