/-
  The limit on nested calls.

  The limit is asked for at one place only, where a call is made.  So the same calls to the
  target build the same assembly under any limit (`Built.limited`), and a run that stays within
  one limit is a run under every higher one (`evaluate_limited`): an evaluation in which calls
  do not nest too deep has its answer for good.
-/
import Reckon.Proofs.Assembly.Running

namespace Reckon

namespace Assembly

variable {a b : Assembly} {limit limit' : Nat}

def limited (a : Assembly) (limit : Nat) : Assembly := { a with depthLimit := limit }

/-! ### Building under another limit -/

theorem emitted_limited {α : Type} (a : Assembly) (limit : Nat) (is : List Instruction)
    (next : Nat) (result : α) :
    ((a.limited limit).emitted is next result).2 =
      (a.emitted is next result).2.limited limit := by
  have same : (a.limited limit).openBody? = a.openBody? := rfl
  unfold emitted
  rw [same]
  cases a.openBody? <;> rfl

theorem emit_limited (a : Assembly) (limit : Nat) (type : ValueType)
    (make : Value → Instruction) :
    ((emit type make).run (a.limited limit)).2 = ((emit type make).run a).2.limited limit := by
  rw [run_emit_eq, run_emit_eq]
  exact emitted_limited a limit _ _ _

theorem close_limited (a : Assembly) (limit : Nat) (h : Handle) :
    (a.limited limit).close h = (a.close h).limited limit := by
  have same : (a.limited limit).insertion = a.insertion := rfl
  unfold close
  rw [same]
  split <;> rfl

/-- A call to the target does the same under every limit. -/
theorem Operates.limited (operates : a.Operates b) (limit : Nat) :
    (a.limited limit).Operates (b.limited limit) := by
  cases operates with
  | literal x =>
    have same : ((emitLiteral x).run (a.limited limit)).2 =
        ((emitLiteral x).run a).2.limited limit := emit_limited a limit .double (.const · x)
    exact same ▸ .literal x
  | arith op left right =>
    have same : ((emitArith op left right).run (a.limited limit)).2 =
        ((emitArith op left right).run a).2.limited limit :=
      emit_limited a limit .double (.arith op · left right)
    exact same ▸ .arith op left right
  | lessThan left right =>
    have same : ((emitLessThan left right).run (a.limited limit)).2 =
        ((emitLessThan left right).run a).2.limited limit := by
      rw [run_emitLessThan_eq, run_emitLessThan_eq]
      exact emitted_limited a limit _ _ _
    exact same ▸ .lessThan left right
  | call h args =>
    have same : ((emitCall h args).run (a.limited limit)).2 =
        ((emitCall h args).run a).2.limited limit := by
      have alive : (a.limited limit).routine? h = a.routine? h := rfl
      rw [run_emitCall_eq, run_emitCall_eq, alive]
      split
      · exact emitted_limited a limit _ _ _
      · rfl
    exact same ▸ .call h args
  | ret value =>
    have same : ((emitRet value).run (a.limited limit)).2 =
        ((emitRet value).run a).2.limited limit := by
      rw [emitRet, run_push_eq, run_push_eq]
      exact emitted_limited a limit _ _ _
    exact same ▸ .ret value
  | declare name params =>
    have same : ((Assembly.declare name params).run (a.limited limit)).2 =
        ((Assembly.declare name params).run a).2.limited limit := by
      have named : (a.limited limit).lookup name = a.lookup name := rfl
      rw [run_declare, run_declare, named]
      split <;> rfl
    exact same ▸ .declare name params
  | openBody h =>
    have same : ((Assembly.openBody h).run (a.limited limit)).2 =
        ((Assembly.openBody h).run a).2.limited limit := by
      have alive : (a.limited limit).routine? h = a.routine? h := rfl
      rw [run_openBody_eq, run_openBody_eq, alive]
      cases a.routine? h with
      | none => rfl
      | some r =>
        simp only
        split <;> rfl
    exact same ▸ .openBody h
  | abandon h =>
    have same : ((Assembly.abandon h).run (a.limited limit)).2 =
        ((Assembly.abandon h).run a).2.limited limit := close_limited (a.setSlot h none) limit h
    exact same ▸ .abandon h
  | discardBody h =>
    have same : ((Assembly.discardBody h).run (a.limited limit)).2 =
        ((Assembly.discardBody h).run a).2.limited limit := by
      cases alive : a.routine? h with
      | none =>
        rw [run_discardBody_none alive, run_discardBody_none (a := a.limited limit) alive]
        exact close_limited a limit h
      | some r =>
        rw [run_discardBody alive, run_discardBody (a := a.limited limit) alive]
        exact close_limited (a.setSlot h (some { r with body := none })) limit h
    exact same ▸ .discardBody h
  | verify h => exact .verify h
  | evaluate h =>
    have same : ((evaluated h).run (a.limited limit)).2 =
        ((evaluated h).run a).2.limited limit := by
      rw [run_evaluated, run_evaluated]
    exact same ▸ .evaluate h

/-- What can be built under one limit can be built under every other one by the same calls. -/
theorem Built.limited (built : a.Built) (limit : Nat) : (a.limited limit).Built := by
  induction built with
  | empty moduleName depthLimit => exact .empty moduleName limit
  | operate _ operates ih => exact .operate ih (operates.limited limit)

/-! ### Evaluating under a higher limit -/

/-- An evaluation for which calls do not nest too deep comes to the same under every higher
    limit. -/
theorem evaluate_limited (a : Assembly) (h : Handle) (le : limit ≤ limit')
    (shallow : (a.limited limit).evaluate h ≠ .error (.tooDeep limit)) :
    (a.limited limit').evaluate h = (a.limited limit).evaluate h := by
  have same : ∀ k, (a.limited limit).Leads h k →
      (a.limited limit').routine? (Renaming.refl.handle k) =
        ((a.limited limit).routine? k).map (·.renamed .refl) := by
    intro k _
    change a.routine? k = (a.routine? k).map (·.renamed .refl)
    cases a.routine? k with
    | none => rfl
    | some r => rw [Option.map_some, Routine.renamed_refl]
  have deep : AsDeep (· = .tooDeep limit) (a.limited limit) (a.limited limit') limit limit' :=
    .inr ⟨le, rfl⟩
  obtain ⟨fault, rfl, ends⟩ | eq := evaluate_renamed same deep
  · exact absurd ends shallow
  · refine Eq.trans eq ?_
    cases (a.limited limit).evaluate h with
    | ok evaluation => rfl
    | error fault => exact congrArg Except.error fault.renamed_refl

/-- Raising the limit never changes an answer.  In an assembly that was built by any calls, an
    evaluation that does not fail for nesting too deep gives its value and its text, or its
    error, under every higher limit; and the same calls build the assembly under both. -/
theorem higher_limit_keeps_answer (built : a.Built) (h : Handle) (le : limit ≤ limit')
    (shallow : ((target.evaluate h).run (a.limited limit)).1 ≠
      .error (Fault.tooDeep limit).toTargetError) :
    (a.limited limit).Built ∧ (a.limited limit').Built ∧
      ((target.evaluate h).run (a.limited limit')).1 =
        ((target.evaluate h).run (a.limited limit)).1 := by
  refine ⟨built.limited limit, built.limited limit', ?_⟩
  change ((evaluated h).run _).1 = ((evaluated h).run _).1
  change ((evaluated h).run _).1 ≠ _ at shallow
  rw [run_evaluated] at shallow
  rw [run_evaluated, run_evaluated, evaluate_limited a h le]
  intro tooDeep
  rw [tooDeep] at shallow
  exact shallow rfl

/-- A chain of calls that ends at a routine given up, built where calls may nest once. -/
def chain : Assembly :=
  List.foldl (fun a call => call a) (empty "chain" 1)
    [fun a => ((target.declare "" []).run a).2,
     fun a => ((target.declare "" ["x"]).run a).2,
     fun a => ((target.openBody 1).run a).2,
     fun a => ((target.call 0 []).run a).2,
     fun a => ((target.ret ⟨1, .double⟩).run a).2,
     fun a => ((target.declare "" []).run a).2,
     fun a => ((target.openBody 2).run a).2,
     fun a => ((target.literal 1).run a).2,
     fun a => ((target.call 1 [⟨2, .double⟩]).run a).2,
     fun a => ((target.ret ⟨3, .double⟩).run a).2,
     fun a => ((target.abandon 0).run a).2]

theorem built_chain : chain.Built :=
  .operate (.operate (.operate (.operate (.operate (.operate (.operate (.operate (.operate
    (.operate (.operate (.empty "chain" 1)
      (.declare _ _)) (.declare _ _)) (.openBody _)) (.call _ _)) (.ret _)) (.declare _ _))
        (.openBody _)) (.literal _)) (.call _ _)) (.ret _)) (.abandon _)

/-- Three calls deep the routine given up is missed, and so it is from there on; two calls deep
    the limit comes first. -/
theorem higher_limit_keeps_answer_of_chain :
    chain.Built ∧
      ((target.evaluate 2).run (chain.limited 2)).1 = .error (Fault.tooDeep 2).toTargetError ∧
      ((target.evaluate 2).run (chain.limited 3)).1 = .error .staleHandle ∧
      (chain.limited 256).Built ∧
      ((target.evaluate 2).run (chain.limited 256)).1 = .error .staleHandle := by
  have cutOff : ((target.evaluate 2).run (chain.limited 2)).1 =
      .error (Fault.tooDeep 2).toTargetError := rfl
  have missed : ((target.evaluate 2).run (chain.limited 3)).1 = .error .staleHandle := rfl
  have shallow : ((target.evaluate 2).run (chain.limited 3)).1 ≠
      .error (Fault.tooDeep 3).toTargetError := by
    rw [missed]
    intro same
    cases same
  have kept := higher_limit_keeps_answer built_chain 2 (by decide : 3 ≤ 256) shallow
  exact ⟨built_chain, cutOff, missed, kept.2.1, kept.2.2.trans missed⟩

end Assembly

end Reckon
