/-
  Functions that cannot be defined again.

  A live function of the name stands against a definition if it has a body, or if it takes
  another number of parameters.  The number of parameters is compared first, so the error does
  not tell one from the other: a function that has a body is said to be redefined only by a
  definition with as many parameters.  Nothing is done to the assembly or to the names that are
  bound.
-/
import Reckon.Proofs.Generate.Verdict

namespace Reckon.Gen

open Assembly

/-- In whatever state, a definition of a live function that has a body fails as a redefinition
    if it has as many parameters, and as a mismatch otherwise, as it does where a declaration
    takes another number of parameters; and it leaves the assembly and all names as they were. -/
theorem second_definition_refused {g : Generator Assembly Value} (reached : g.Reached)
    {h : Handle} {r : Routine} (alive : (h, r) ∈ g.target.live) {d : Definition}
    (named : r.name = d.proto.name) (notAnonymous : d.proto.name ≠ "")
    (stands : r.body.isSome ∨ r.params.length ≠ d.proto.arity) :
    (definition target d).outcome g =
      (.error ⟨if r.params.length = d.proto.arity then .redefinition d.proto.name
        else .prototypeMismatch d.proto.name r.params.length d.proto.arity,
        d.proto.span.start⟩, g) := by
  have here := mem_live.1 alive
  have unique := reached.built.kept.1
  have found : g.target.lookup d.proto.name = some h :=
    named ▸ unique.lookup here (named ▸ notAnonymous)
  exact outcome_definition_refused found here stands g.scope

/-- `f` was declared, a definition of it failed, and another one completed it; meanwhile a value
    that nothing defines is bound to `z`. -/
def completed : Generator Assembly Value :=
  let declared : Generator Assembly Value :=
    ((prototype target ⟨"f", ["x"], .nowhere⟩).outcome ⟨empty "completed" 8, []⟩).2
  let failed : Generator Assembly Value :=
    ((definition target ⟨⟨"f", ["x"], .nowhere⟩, .var "y" .nowhere⟩).outcome declared).2
  let defined : Generator Assembly Value :=
    ((definition target ⟨⟨"f", ["y"], .nowhere⟩, .var "y" .nowhere⟩).outcome failed).2
  ⟨((target.ret ⟨7, .bool⟩).run defined.target).2, [("z", ⟨99, .bool⟩)]⟩

theorem reached_completed : completed.Reached :=
  .operate (.definition (.definition (.prototype (.start "completed" 8 []) _) _) _)
    (.ret ⟨7, .bool⟩) _

theorem live_completed : ∃ r, (0, r) ∈ completed.target.live ∧ r.name = "f" ∧
    r.params.length = 1 ∧ r.body.isSome := by
  have first : (completed.target.routine? 0).map
      (fun r => (r.name, r.params.length, r.body.isSome)) = some ("f", 1, true) := by
    decide +kernel
  obtain ⟨r, alive, eq⟩ := Option.map_eq_some_iff.1 first
  obtain ⟨name, count, bodied⟩ := by simpa using eq
  exact ⟨r, mem_live.2 alive, name, count, bodied⟩

/-- Defined again with two parameters, `f` does not match; with one, it is redefined. -/
theorem second_definition_refused_completed :
    (∀ body, (definition target ⟨⟨"f", ["x", "y"], .within "w" 2 3⟩, body⟩).outcome completed =
      (.error ⟨.prototypeMismatch "f" 1 2, ⟨2, "w"⟩⟩, completed)) ∧
    ∀ body, (definition target ⟨⟨"f", ["y"], .within "w" 2 3⟩, body⟩).outcome completed =
      (.error ⟨.redefinition "f", ⟨2, "w"⟩⟩, completed) := by
  obtain ⟨r, alive, name, count, bodied⟩ := live_completed
  have notEmpty : "f" ≠ "" := by decide
  constructor
  · intro body
    have refused := second_definition_refused reached_completed alive
      (d := ⟨⟨"f", ["x", "y"], .within "w" 2 3⟩, body⟩) name notEmpty (.inl bodied)
    rwa [count] at refused
  · intro body
    have refused := second_definition_refused reached_completed alive
      (d := ⟨⟨"f", ["y"], .within "w" 2 3⟩, body⟩) name notEmpty (.inl bodied)
    rwa [count] at refused

/-- A function that has a body is defined again, and the error is not that of a redefinition. -/
theorem redefinition_reported_as_mismatch :
    completed.Reached ∧
      (∃ r, (0, r) ∈ completed.target.live ∧ r.name = "f" ∧ r.body.isSome) ∧
      ∀ p, ((definition target
        ⟨⟨"f", ["x", "y"], .nowhere⟩, .var "y" .nowhere⟩).outcome completed).1 ≠
          .error ⟨.redefinition "f", p⟩ := by
  obtain ⟨r, alive, name, -, bodied⟩ := live_completed
  refine ⟨reached_completed, ⟨r, alive, name, bodied⟩, fun p same => ?_⟩
  have mismatch : ((definition target
      ⟨⟨"f", ["x", "y"], .nowhere⟩, .var "y" .nowhere⟩).outcome completed).1 =
        .error ⟨.prototypeMismatch "f" 1 2, .nowhere⟩ := by decide +kernel
  rw [mismatch] at same
  cases same

end Reckon.Gen
