/-
  What failed constructs and bare expressions leave behind.

  They take numbers and slots and leave nothing else.  So two sessions whose assemblies are
  related, whatever failed in either before, answer the next construct in the same way, and
  their assemblies are related again (`generate_alike`).  A construct that fails and a bare
  expression lead to an assembly that is related to the one before (`related_of_keeps`), so to
  leave them out changes no later answer (`omits_alike`).

  The main statement is `numbering_alone_remains`.
-/
import Reckon.Proofs.Assembly.Running
import Reckon.Proofs.Generate.Correspondence
import Reckon.Proofs.Meaning.Preservation
import Reckon.Proofs.Session.Batch
import Reckon.Proofs.Session.Succession

namespace Reckon

open Assembly

/-- An outcome but for the text of the code, which shows numbers. -/
def Outcome.withoutCode : Outcome → Outcome
  | .definition name _ => .definition name ""
  | .external name _ => .external name ""
  | .expression _ value output => .expression "" value output
  | .skipped => .skipped
  | .failed d => .failed d

def Construct.generating : Construct → Gen Assembly Value Handle
  | .definition d | .expression d => Gen.definition Assembly.target d
  | .external p => Gen.prototype Assembly.target p

theorem Assembly.Effect.keeps_of_isFailure {a b : Assembly} {o : Outcome}
    (effect : a.Effect o b) (fails : o.isFailure = true) : a.Keeps b := by
  cases effect with
  | failed keeps => exact keeps
  | _ => cases fails

/-- Two states that sessions lead to are related if their assemblies are. -/
structure Generator.Related (ρ : Renaming) (g g' : Generator Assembly Value) : Prop where
  left : g.OfSessions
  right : g'.OfSessions
  assemblies : RelatedBy ρ g.target g'.target

namespace Session

variable {s u : Session Assembly Value} {x : Construct} {d : Definition} {p : Prototype}

/-! ### One construct in two sessions -/

/-- A bare expression that comes to the same in two sessions is answered alike by them. -/
theorem expression_alike {h k : Handle} {g g' : Generator Assembly Value}
    (settings : u.settings = s.settings)
    (generated : (Gen.definition target d).outcome s.generator = (.ok h, g))
    (generated' : (Gen.definition target d).outcome u.generator = (.ok k, g'))
    (ran : g'.target.evaluate k = g.target.evaluate h) :
    (s.generateExpression target d).1.withoutCode =
      (u.generateExpression target d).1.withoutCode := by
  cases evaluates : s.settings.evaluate with
  | false =>
    have evaluates' : u.settings.evaluate = false := settings ▸ evaluates
    simp only [generateExpression, generated, generated', evaluates, evaluates',
      Bool.false_eq_true, if_false, Outcome.withoutCode]
  | true =>
    have evaluates' : u.settings.evaluate = true := settings ▸ evaluates
    obtain ⟨code, outcome⟩ := outcome_of_generates evaluates generated
    obtain ⟨code', outcome'⟩ := outcome_of_generates evaluates' generated'
    rw [ran] at outcome'
    rw [outcome, outcome']
    cases g.target.evaluate h <;> rfl

/-- Two sessions answer a construct alike: with the same outcome, but for the text of the
    code, and with functions that correspond; and their states are related again by a renaming
    that makes of what was there what `ρ` made of it. -/
structure AnswerAlike (ρ : Renaming) (s u : Session Assembly Value) (x : Construct) : Prop where
  outcome : (s.generate target x).1.withoutCode = (u.generate target x).1.withoutCode
  after : ∃ σ : Renaming, σ.AgreesOn ρ s.generator.target ∧
    Gen.Corresponds σ (x.generating.outcome s.generator) (x.generating.outcome u.generator) ∧
    Generator.Related σ (s.generate target x).2.generator (u.generate target x).2.generator

section Alike

variable {ρ : Renaming} (related : Generator.Related ρ s.generator u.generator)
include related

theorem generating_corresponds (x : Construct) :
    ∃ σ : Renaming, σ.AgreesOn ρ s.generator.target ∧
      Gen.Corresponds σ (x.generating.outcome s.generator) (x.generating.outcome u.generator) := by
  obtain ⟨left, right, assemblies⟩ := related
  have ordered := left.settled.built.ordered
  have ordered' := right.settled.built.ordered
  have consistent := left.settled.consistent
  have consistent' := right.settled.consistent
  cases x with
  | definition d | expression d =>
    exact Gen.definition_corresponds assemblies consistent consistent' ordered ordered' d
  | external p =>
    exact Gen.prototype_corresponds assemblies consistent consistent' ordered ordered' p

/-- A construct whose function stays is answered by what became of the function. -/
theorem alike_of_staying (parsed : x.Parsed) (report : String → Outcome)
    (shown : ∀ code code', (report code).withoutCode = (report code').withoutCode)
    (generates : ∀ s : Session Assembly Value, s.generate target x =
      match x.generating.outcome s.generator with
      | (.ok h, g) => (report (target.print g.target h), { s with generator := g })
      | (.error e, g) => (.failed e, { s with generator := g })) : AnswerAlike ρ s u x := by
  obtain ⟨σ, agrees, corresponds⟩ := generating_corresponds related x
  suffices same : (s.generate target x).1.withoutCode = (u.generate target x).1.withoutCode ∧
      RelatedBy σ (s.generate target x).2.generator.target
        (u.generate target x).2.generator.target from
    ⟨same.1, σ, agrees, corresponds, related.left.generate parsed, related.right.generate parsed,
      same.2⟩
  rw [generates s, generates u]
  generalize x.generating.outcome s.generator = came at corresponds ⊢
  generalize x.generating.outcome u.generator = came' at corresponds ⊢
  cases corresponds with
  | made here there between => exact ⟨shown _ _, between⟩
  | refused e between => exact ⟨rfl, between⟩

/-- A bare expression is run in both, and what is left of it is given up. -/
theorem alike_of_expression (settings : u.settings = s.settings)
    (parsed : (Construct.expression d).Parsed) : AnswerAlike ρ s u (.expression d) := by
  obtain ⟨σ, agrees, corresponds⟩ := generating_corresponds related (.expression d)
  have kept := generateExpression_keeps unreliable_target s parsed.nameless
  have kept' := generateExpression_keeps unreliable_target u parsed.nameless
  refine ⟨?_, σ, agrees, corresponds, related.left.generate parsed, related.right.generate parsed,
    (related.assemblies.congr agrees).keeps kept kept'⟩
  have settled := related.left.settled
  have later := Gen.operating_definition d s.generator
  have defined := (Gen.definition_outcome unreliable_target d s.generator).2
  rcases generated : (Gen.definition target d).outcome s.generator with ⟨result, g⟩
  rcases generated' : (Gen.definition target d).outcome u.generator with ⟨result', g'⟩
  rw [generated] at later defined
  rw [Construct.generating, generated, generated'] at corresponds
  cases corresponds with
  | refused e =>
    simp only [generate, generateExpression, generated, generated', Outcome.withoutCode]
  | @made h r g g' here there between =>
    -- Both run what was generated, before they give it up.
    have consistent := Defines.consistent defined settled.consistent
    have ran := between.evaluate (settled.built.later later).ordered consistent h
    exact expression_alike settings generated generated' ran

theorem generate_alike (settings : u.settings = s.settings) (parsed : x.Parsed) :
    AnswerAlike ρ s u x := by
  cases x with
  | definition d =>
    refine alike_of_staying related parsed (.definition d.proto.name) (fun _ _ => rfl) ?_
    intro s
    simp only [generate, generateDefinition, Construct.generating]
    rcases (Gen.definition target d).outcome s.generator with ⟨_ | _, _⟩ <;> rfl
  | external p =>
    refine alike_of_staying related parsed (.external p.name) (fun _ _ => rfl) ?_
    intro s
    simp only [generate, generateExternal, Construct.generating]
    rcases (Gen.prototype target p).outcome s.generator with ⟨_ | _, _⟩ <;> rfl
  | expression d => exact alike_of_expression related settings parsed

/-- What keeps the routines of one of the assemblies keeps it related to the other. -/
theorem related_of_keeps (parsed : x.Parsed)
    (keeps : s.generator.target.Keeps (s.generate target x).2.generator.target) :
    Generator.Related ρ (s.generate target x).2.generator u.generator :=
  ⟨related.left.generate parsed, related.right, related.assemblies.keeps keeps (.refl _)⟩

end Alike

/-! ### Constructs one after the other -/

def handled (t : Target Assembly Value Handle) :
    Session Assembly Value → List Construct → List Outcome
  | _, [] => []
  | s, x :: xs => (s.generate t x).1 :: handled t (s.generate t x).2 xs

/-- Of constructs that are handled one after the other some that fail and some bare
    expressions are left out: `os` are the outcomes of the others. -/
inductive Omits (t : Target Assembly Value Handle) : Session Assembly Value →
    (xs : List Construct) → (os : List Outcome) → (ys : List Construct) → Prop where
  | nil (s : Session Assembly Value) : Omits t s [] [] []
  | kept {s : Session Assembly Value} {xs ys : List Construct} {os : List Outcome} (x : Construct)
    (rest : Omits t (s.generate t x).2 xs os ys) :
    Omits t s (x :: xs) ((s.generate t x).1 :: os) (x :: ys)
  | failed {s : Session Assembly Value} {xs ys : List Construct} {os : List Outcome} {x : Construct}
    (fails : (s.generate t x).1.isFailure = true) (rest : Omits t (s.generate t x).2 xs os ys) :
    Omits t s (x :: xs) os ys
  | expression {s : Session Assembly Value} {xs ys : List Construct} {os : List Outcome}
    (d : Definition) (rest : Omits t (s.generate t (.expression d)).2 xs os ys) :
    Omits t s (.expression d :: xs) os ys

theorem same_settings (settings : u.settings = s.settings) (x : Construct) :
    (u.generate target x).2.settings = (s.generate target x).2.settings := by
  rw [(carries_generate target u x).settings, settings, (carries_generate target s x).settings]

theorem omits_alike {xs ys : List Construct} {os : List Outcome}
    (omits : Omits target s xs os ys) : ∀ {ρ : Renaming} {u : Session Assembly Value},
      Generator.Related ρ s.generator u.generator → u.settings = s.settings →
      (∀ x ∈ xs, x.Parsed) →
      os.map Outcome.withoutCode = (u.handled target ys).map Outcome.withoutCode := by
  induction omits with
  | nil s => exact fun _ _ _ => rfl
  | @kept s xs ys os x rest ih =>
    intro ρ u related settings parsed
    obtain ⟨here, later⟩ := List.forall_mem_cons.1 parsed
    obtain ⟨outcome, σ, -, -, after⟩ := generate_alike related settings here
    have others := ih after (same_settings settings x) later
    rw [handled, List.map_cons, List.map_cons, outcome, others]
  | @failed s xs ys os x fails rest ih =>
    intro ρ u related settings parsed
    obtain ⟨here, later⟩ := List.forall_mem_cons.1 parsed
    have keeps := (effect_generate s here).keeps_of_isFailure fails
    exact ih (related_of_keeps related here keeps)
      (settings.trans (carries_generate target s x).settings.symm) later
  | @expression s xs ys os d rest ih =>
    intro ρ u related settings parsed
    obtain ⟨here, later⟩ := List.forall_mem_cons.1 parsed
    have keeps := generateExpression_keeps unreliable_target s here.nameless
    exact ih (related_of_keeps related here keeps)
      (settings.trans (carries_generate target s (.expression d)).settings.symm) later

/-- Sessions with the same settings and with related states answer every construct alike,
    whatever failed in either before, whatever expressions were run, and whatever numbers,
    empty slots and open bodies that left behind.  So to leave out of constructs that were read
    some that fail and some bare expressions changes the outcome of no other. -/
theorem numbering_alone_remains {ρ : Renaming} (settings : u.settings = s.settings)
    (related : Generator.Related ρ s.generator u.generator) :
    (∀ x : Construct, x.Parsed → AnswerAlike ρ s u x) ∧
      ∀ xs os ys, (∀ x ∈ xs, x.Parsed) → Omits target s xs os ys →
        os.map Outcome.withoutCode = (u.handled target ys).map Outcome.withoutCode := by
  constructor
  · intro x parsed
    exact generate_alike related settings parsed
  · intro xs os ys parsed omits
    exact omits_alike omits related settings parsed

theorem ok_of_any {ε α : Type} {result : Except ε α} {p : α → Bool}
    (any : result.toOption.any p = true) : ∃ x, result = .ok x ∧ p x = true := by
  cases result with
  | error e => cases any
  | ok x => exact ⟨x, rfl, any⟩

/-- In one of two sessions a definition failed before another one that succeeds in both, so
    that its function has other numbers there.  Then one is given a definition that fails, and
    both the same expression. -/
theorem numbering_alone_remains_after_failure :
    let s₀ : Session Assembly Value := ofSource "" "" (.empty "" 8) {}
    let u₀ : Session Assembly Value :=
      ((ofSource "def f(x y) x+z" "" (.empty "" 8) {}).definition target).2
    ∃ d f e : Definition,
      ((Parse.definition .standard).outcome (.ofSource "def g(x) x+x" "")).1 = .ok d ∧
      ((Parse.definition .standard).outcome (.ofSource "def h(x) g(x, x)" "")).1 = .ok f ∧
      ((Parse.topLevel .standard).outcome (.ofSource "g(2)" "")).1 = .ok e ∧
      let s := (s₀.generate target (.definition d)).2
      let u := (u₀.generate target (.definition d)).2
      s.generator.target.live.map Prod.fst = [0] ∧ u.generator.target.live.map Prod.fst = [1] ∧
      ∃ ρ : Renaming, Generator.Related ρ s.generator u.generator ∧
        AnswerAlike ρ s u (.definition f) ∧
        [((s.generate target (.definition f)).2.generate target (.expression e)).1].map
            Outcome.withoutCode =
          (u.handled target [.expression e]).map Outcome.withoutCode := by
  intro s₀ u₀
  have runs : (((Parse.definition .standard).outcome (.ofSource "def g(x) x+x" "")).1.toOption.any
      fun d => ((Parse.definition .standard).outcome
        (.ofSource "def h(x) g(x, x)" "")).1.toOption.any fun f =>
          let s := (s₀.generate target (.definition d)).2
          let u := (u₀.generate target (.definition d)).2
          s.generator.target.live.map Prod.fst = [0] ∧
            u.generator.target.live.map Prod.fst = [1] ∧
            (s.generate target (.definition f)).1.isFailure = true) = true := by
    unfold s₀ u₀
    decide +kernel
  have reads : ((Parse.topLevel .standard).outcome (.ofSource "g(2)" "")).1.toOption.any
      (fun _ => true) = true := by decide +kernel
  obtain ⟨d, readD, runs⟩ := ok_of_any runs
  obtain ⟨f, readF, runs⟩ := ok_of_any runs
  obtain ⟨e, readE, -⟩ := ok_of_any reads
  obtain ⟨liveS, liveU, fails⟩ := of_decide_eq_true runs
  have parsedD : (Construct.definition d).Parsed := .definition (Prod.ext readD rfl)
  have parsedF : (Construct.definition f).Parsed := .definition (Prod.ext readF rfl)
  have parsedE : (Construct.expression e).Parsed := .expression (Prod.ext readE rfl)
  -- To begin with nothing is alive in either, so any renaming relates the two.
  have reaches : Reaches target _ u₀ := .act .start .definition
  have settings : u₀.settings = s₀.settings := (settings_of_reaches reaches).trans rfl
  have nothing : u₀.generator.target.live.isEmpty = true := by
    unfold u₀
    decide +kernel
  have related : RelatedBy .refl s₀.generator.target u₀.generator.target :=
    ⟨List.isEmpty_iff.1 nothing, by decide +kernel⟩
  obtain ⟨-, ρ, -, -, after⟩ := generate_alike
    ⟨.empty "" 8, .session (.empty "" 8) reaches, related⟩ settings parsedD
  obtain ⟨alike, omitting⟩ := numbering_alone_remains (same_settings settings (.definition d)) after
  have parsed : ∀ x ∈ [Construct.definition f, .expression e], x.Parsed := by
    simp [parsedF, parsedE]
  refine ⟨d, f, e, readD, readF, readE, liveS, liveU, ρ, after, alike _ parsedF, ?_⟩
  exact omitting _ _ _ parsed (.failed fails (.kept _ (.nil _)))

end Session

end Reckon
