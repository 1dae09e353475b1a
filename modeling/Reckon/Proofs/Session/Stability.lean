/-
  What functions mean stays.

  Over a run functions are only added and completed, and names go on standing for the same
  functions.  So an expression that was accepted once is accepted from then on
  (`generates_later`).  It comes to the same as long as none of the functions that it relies on
  is completed, for all the others have the bodies that they had.  What else is defined,
  refused, or run in between plays no part, though it takes numbers and slots.

  The main statement is `meaning_stable`.
-/
import Reckon.Proofs.Generate.Reliance
import Reckon.Proofs.Session.Influence

namespace Reckon

open Assembly

namespace Assembly

variable {a b : Assembly} {h : Handle} {r : Routine} {e : Expr}

/-- A routine that was not completed is what it was. -/
theorem Grows.same (grows : a.Grows b) (alive : a.routine? h = some r)
    (unfinished : r.body = none → b.hasBody h = false) : b.routine? h = some r := by
  obtain ⟨s, alive', completes⟩ := grows h r alive
  cases completes with
  | same => exact alive'
  | body bodiless code =>
    have has := unfinished bodiless
    rw [hasBody, alive'] at has
    cases has

theorem Grows.taken (grows : a.Grows b) (unique : a.UniqueNames) (unique' : b.UniqueNames)
    (name : String) (count : Nat) (taken : a.taken name = some count) :
    b.taken name = some count := by
  rw [← map_arity_lookup unique, Option.map_eq_some_iff] at taken
  obtain ⟨h, found, arity⟩ := taken
  obtain ⟨found', arity'⟩ := grows.callees unique' name count h ⟨found, arity⟩
  rw [← map_arity_lookup unique', found', Option.map_some, arity']

theorem complaints_anonymous (a : Assembly) (e : Expr) :
    Gen.complaints a (.anonymous e) = e.violations a.taken [] := by
  have unnamed : a.lookup (Definition.anonymous e).proto.name = none :=
    lookup_eq_none_iff.2 (.inl rfl)
  have signatures : a.signatures (Definition.anonymous e).proto = a.taken := by
    funext name
    exact if_neg fun own => own.1 own.2
  unfold Gen.complaints
  rw [signatures, unnamed]
  rfl

/-- What nothing stands against has nothing against it where there are more functions. -/
theorem Grows.complaints (grows : a.Grows b) (unique : a.UniqueNames) (unique' : b.UniqueNames)
    (none : Gen.complaints a (.anonymous e) = []) : Gen.complaints b (.anonymous e) = [] := by
  rw [complaints_anonymous, Expr.violations_eq_nil_iff] at none ⊢
  exact none.mono (grows.taken unique unique')

end Assembly

namespace Session

variable {s₀ s s' : Session Assembly Value} {e : Expr} {h : Handle} {g : Generator Assembly Value}

theorem settled_of_fresh (fresh : s₀.Fresh id) (reaches : Reaches target s₀ s) :
    s.generator.target.Settled := by
  obtain ⟨moduleName, depthLimit, empty⟩ := fresh.target
  refine settled_of_reaches ?_ reaches
  have same : s₀.generator.target = .empty moduleName depthLimit := empty
  rw [same]
  exact ⟨.empty moduleName depthLimit, consistent_empty moduleName depthLimit⟩

theorem defines_of_generated
    (generated : (Gen.definition target (.anonymous e)).outcome s.generator = (.ok h, g)) :
    s.generator.target.Defines (.anonymous e) h g.target := by
  have defines := (Gen.definition_outcome unreliable_target (.anonymous e) s.generator).2
  rw [generated] at defines
  exact defines

/-- An expression that is generated in a state of a run is generated in every later one. -/
theorem generates_later (settled : s.generator.target.Settled) (later : Reaches target s s')
    (generated : (Gen.definition target (.anonymous e)).outcome s.generator = (.ok h, g)) :
    ∃ h' g', (Gen.definition target (.anonymous e)).outcome s'.generator = (.ok h', g') := by
  have settled' := settled_of_reaches settled later
  have grows := grows_of_reaches unreliable_target later
  have judged := Gen.definition_judged settled.built.ordered settled.consistent.unique
    (.anonymous e) s.generator.scope
  have judged' := Gen.definition_judged settled'.built.ordered settled'.consistent.unique
    (.anonymous e) s'.generator.scope
  have none := judged.ok_iff.1 ⟨h, congrArg Prod.fst generated⟩
  obtain ⟨h', made⟩ := judged'.ok_iff.2
    (grows.complaints settled.consistent.unique settled'.consistent.unique none)
  exact ⟨h', _, Prod.ext made rfl⟩

/-- An expression that is generated in a state of a run over a fresh assembly is generated in
    every later one, and comes to the same value and text or to the same fault there, if no
    function that it relies on and that had no body has one then; and it is answered alike. -/
theorem meaning_stable (fresh : s₀.Fresh id) (reaches : Reaches target s₀ s)
    (later : Reaches target s s')
    (generated : (Gen.definition target (.anonymous e)).outcome s.generator = (.ok h, g))
    (unfinished : ∀ entry ∈ s.generator.target.live, entry.2.body = none →
      s.generator.target.ReliesOn e entry.1 → s'.generator.target.hasBody entry.1 = false) :
    (∃ h' g', (Gen.definition target (.anonymous e)).outcome s'.generator = (.ok h', g') ∧
      g'.target.evaluate h' = g.target.evaluate h) ∧
    (s'.generateExpression target (.anonymous e)).1.withoutCode =
      (s.generateExpression target (.anonymous e)).1.withoutCode := by
  have settled := settled_of_fresh fresh reaches
  have settled' := settled_of_reaches settled later
  have grows := grows_of_reaches unreliable_target later
  have limit := depthLimit_of_reaches unreliable_target later
  obtain ⟨h', g', generated'⟩ := generates_later settled later generated
  have defines := defines_of_generated generated
  obtain ⟨rfl, is, v, next, adds⟩ := defines.adds
  obtain ⟨rfl, is', v', next', adds'⟩ := (defines_of_generated generated').adds
  have same : ∀ k r, s.generator.target.routine? k = some r → s.generator.target.ReliesOn e k →
      s'.generator.target.routine? k = some r := by
    intro k r alive relies
    exact grows.same alive fun bodiless => unfinished (k, r) (mem_live.2 alive) bodiless relies
  have operated : s.generator.target.Later g.target := by
    have operates := Gen.operating_definition (.anonymous e) s.generator
    rw [generated] at operates
    exact operates
  have ran := adds.evaluate_eq adds' grows settled.consistent settled'.consistent.unique
    settled.built.ordered settled'.built.ordered limit same
    (settled.built.later operated).ordered (defines.consistent settled.consistent)
  refine ⟨⟨_, g', generated', ran⟩, ?_⟩
  exact (expression_alike (settings_of_reaches later) generated generated' ran).symm

/-- `f` calls `g`, which like `k` is only declared. -/
def undefinedCallee : Session Assembly Value :=
  let s₀ : Session Assembly Value := ofSource
    "extern g(x) extern k(x) def f(x) g(x) def k(x) x def f(x) x def g(x) z f(1) def h(x) f(x)" ""
    (.empty "" 8) {}
  (((s₀.external target).2.external target).2.definition target).2

/-- After that `k` is completed, `f` is defined again, completing `g` fails, `f` is run, and `h`
    is defined. -/
def undefinedCalleeLater : Session Assembly Value :=
  (((((undefinedCallee.definition target).2.definition target).2.definition target).2.expression
    target).2.definition target).2

theorem bodies_undefinedCallee :
    undefinedCallee.generator.target.hasBody 2 = true ∧
      undefinedCallee.generator.target.hasBody 1 = false ∧
      undefinedCalleeLater.generator.target.hasBody 1 = true ∧
      undefinedCalleeLater.generator.target.hasBody 0 = false := by
  decide +kernel

/-- Calls lead from `f` to `g` and no further. -/
theorem relied_undefinedCallee {k : Handle}
    (relies : undefinedCallee.generator.target.ReliesOn
      (.call "f" [.num 2 .nowhere] .nowhere) k) : k = 2 ∨ k = 0 := by
  have called : undefinedCallee.generator.target.lookup "f" = some 2 ∧
      undefinedCallee.generator.target.calledBy 2 = [0] ∧
      undefinedCallee.generator.target.calledBy 0 = [] := by decide +kernel
  refine relies.of_closed (P := fun k => k = 2 ∨ k = 0) ?_ ?_
  · intro name among h found
    rw [List.mem_singleton.1 among, called.1] at found
    exact .inl (Option.some.inj found).symm
  · rintro h k (rfl | rfl) calls
    · have among := mem_calledBy.2 calls
      rw [called.2.1] at among
      exact .inr (List.mem_singleton.1 among)
    · have among := mem_calledBy.2 calls
      rw [called.2.2] at among
      cases among

/-- What `f` lacks stays the same, although the other declaration was completed. -/
theorem meaning_stable_undefined_callee :
    let e : Expr := .call "f" [.num 2 .nowhere] .nowhere
    undefinedCallee.generator.target.hasBody 1 = false ∧
      undefinedCalleeLater.generator.target.hasBody 1 = true ∧
      ∃ h g h' g',
        (Gen.definition target (.anonymous e)).outcome undefinedCallee.generator = (.ok h, g) ∧
        (Gen.definition target (.anonymous e)).outcome undefinedCalleeLater.generator =
          (.ok h', g') ∧
        g'.target.evaluate h' = g.target.evaluate h ∧
        g.target.evaluate h = .error (.unresolved "g" 1) := by
  intro e
  have fresh : Fresh id (ofSource
    "extern g(x) extern k(x) def f(x) g(x) def k(x) x def f(x) x def g(x) z f(1) def h(x) f(x)" ""
    (.empty "" 8) {} : Session Assembly Value) := ⟨rfl, _, _, rfl⟩
  have reaches : Reaches target _ undefinedCallee :=
    .act (.act (.act .start .external) .external) .definition
  have later : Reaches target undefinedCallee undefinedCalleeLater :=
    .act (.act (.act (.act (.act .start .definition) .definition) .definition) .expression)
      .definition
  obtain ⟨ofF, ofK, ofKLater, ofGLater⟩ := bodies_undefinedCallee
  have unfinished : ∀ entry ∈ undefinedCallee.generator.target.live, entry.2.body = none →
      undefinedCallee.generator.target.ReliesOn e entry.1 →
        undefinedCalleeLater.generator.target.hasBody entry.1 = false := by
    rintro ⟨k, r⟩ live bodiless relies
    have none : undefinedCallee.generator.target.hasBody k = false := by
      rw [hasBody, mem_live.1 live]
      exact congrArg Option.isSome bodiless
    rcases relied_undefinedCallee relies with rfl | rfl
    · rw [ofF] at none
      cases none
    · exact ofGLater
  have runs : ((Gen.definition target (.anonymous e)).outcome
      undefinedCallee.generator).1.toOption.any (fun h =>
        (((Gen.definition target (.anonymous e)).outcome
          undefinedCallee.generator).2.target.evaluate h).map (fun _ => ()) =
            .error (.unresolved "g" 1)) = true := by
    decide +kernel
  obtain ⟨h, generated, result⟩ := ok_of_any runs
  obtain ⟨⟨h', g', generated', same⟩, -⟩ :=
    meaning_stable fresh reaches later (Prod.ext generated rfl) unfinished
  refine ⟨ofK, ofKLater, h, _, h', g', Prod.ext generated rfl, generated', same, ?_⟩
  have fails := of_decide_eq_true result
  cases evaluates : ((Gen.definition target (.anonymous e)).outcome
      undefinedCallee.generator).2.target.evaluate h with
  | ok evaluation =>
    rw [evaluates] at fails
    cases fails
  | error fault =>
    rw [evaluates] at fails
    exact congrArg Except.error (Except.error.inj fails)

end Session

end Reckon
