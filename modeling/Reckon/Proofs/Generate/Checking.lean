/-
  Code that passes the check.

  Every operand of the code of an expression is a parameter or the value of an expression
  before it, and every call in it goes to a live routine with as many parameters as it brings
  arguments.  So the checker passes over the code, and behind it the value is known
  (`Code.passes`).  A body that is written for an expression and returns its value is
  well-formed (`check_filled`).
-/
import Reckon.Proofs.Meaning.Execution
import Reckon.Proofs.Session.Effect

namespace Reckon

theorem Assembly.arity_eq {a : Assembly} {h : Handle} {r : Routine}
    (alive : a.routine? h = some r) : a.arity h = r.params.length := by
  rw [arity, alive]

open Assembly

variable {callees : Callees} {scope : Scope Value} {c : Assembly}

def Usable (known : List Value) (v : Value) : Prop := v ∈ known ∧ v.type = .double

theorem Usable.mono {known known' : List Value} {v : Value} (usable : Usable known v)
    (subset : known ⊆ known') : Usable known' v := ⟨subset usable.1, usable.2⟩

/-- Checking passes over an instruction whose operands and callee are in order. -/
theorem checkBody_cons {known : List Value} {i : Instruction} {dest : Value}
    (operands : ∀ operand ∈ i.operands, operand.1 ∈ known ∧ operand.1.type = operand.2)
    (fits : c.calleeFits i = true) (defines : i.dest? = some dest) (rest : List Instruction) :
    c.checkBody known (i :: rest) = c.checkBody (dest :: known) rest := by
  have fit : operandsFit known i = true := by
    simpa [operandsFit, List.all_eq_true] using operands
  rw [checkBody, fit, fits, defines]
  rfl

/-- The checker passes from what is known to what is known later, whatever follows. -/
def Passes (c : Assembly) (known : List Value) (is : List Instruction) (known' : List Value) :
    Prop :=
  known ⊆ known' ∧ ∀ rest, c.checkBody known (is ++ rest) = c.checkBody known' rest

theorem Passes.append {known known' known'' : List Value} {is js : List Instruction}
    (first : Passes c known is known') (second : Passes c known' js known'') :
    Passes c known (is ++ js) known'' := by
  refine ⟨List.Subset.trans first.1 second.1, fun rest => ?_⟩
  rw [List.append_assoc, first.2, second.2]

theorem passes_one {known : List Value} {i : Instruction} {dest : Value}
    (operands : ∀ operand ∈ i.operands, operand.1 ∈ known ∧ operand.1.type = operand.2)
    (fits : c.calleeFits i = true) (defines : i.dest? = some dest) :
    Passes c known [i] (dest :: known) :=
  ⟨List.subset_cons_self dest known, checkBody_cons operands fits defines⟩

mutual
/-- The checker passes over the code of an expression, and then its value is known. -/
theorem Code.passes (fits : ∀ name count k, callees name count k →
      ∃ s, c.routine? k = some s ∧ s.params.length = count)
    {first : Nat} {e : Expr} {is : List Instruction} {v : Value} {next : Nat} :
    Code callees scope first e is v next →
      ∀ {known : List Value}, (∀ name w, scope.value? name = some w → Usable known w) →
        ∃ known', Passes c known is known' ∧ Usable known' v
  | .num first x s, known, bound => by
    refine ⟨_, passes_one (i := .const ⟨first, .double⟩ x) ?_ rfl rfl, List.mem_cons_self, rfl⟩
    exact List.forall_mem_nil _
  | .var first s value, known, bound => by
    exact ⟨known, ⟨List.Subset.refl known, fun rest => rfl⟩, bound _ v value⟩
  | @Code.arith _ _ _ _ next _ op _ _ _ _ x y s operation ofLeft ofRight, known, bound => by
    obtain ⟨known₁, left, usableX⟩ := ofLeft.passes fits bound
    obtain ⟨known₂, right, usableY⟩ := ofRight.passes fits
      fun name w value => (bound name w value).mono left.1
    have usableX := usableX.mono right.1
    refine ⟨_, left.append (right.append (passes_one ?_ rfl rfl)), List.mem_cons_self, rfl⟩
    exact List.forall_mem_cons.2 ⟨usableX, List.forall_mem_singleton.2 usableY⟩
  | @Code.lessThan _ _ _ _ next _ _ _ _ _ x y s operation ofLeft ofRight, known, bound => by
    obtain ⟨known₁, left, usableX⟩ := ofLeft.passes fits bound
    obtain ⟨known₂, right, usableY⟩ := ofRight.passes fits
      fun name w value => (bound name w value).mono left.1
    have usableX := usableX.mono right.1
    have compares : Passes c known₂ [.lessThan ⟨next, .bool⟩ x y] (⟨next, .bool⟩ :: known₂) :=
      passes_one (List.forall_mem_cons.2 ⟨usableX, List.forall_mem_singleton.2 usableY⟩) rfl rfl
    have widens : Passes c (⟨next, .bool⟩ :: known₂) [.widen ⟨next + 1, .double⟩ ⟨next, .bool⟩]
        (⟨next + 1, .double⟩ :: ⟨next, .bool⟩ :: known₂) :=
      passes_one (List.forall_mem_singleton.2 ⟨List.mem_cons_self, rfl⟩) rfl rfl
    refine ⟨_, left.append (right.append (compares.append widens)), List.mem_cons_self, rfl⟩
  | @Code.call _ _ _ next _ k _ _ vs s found ofArgs, known, bound => by
    obtain ⟨known', args, usable, length⟩ := ofArgs.passes fits bound
    obtain ⟨r, alive, count⟩ := fits _ _ k found
    have calls : c.calleeFits (.call ⟨next, .double⟩ k vs) = true := by
      simp [calleeFits, alive, count, length]
    refine ⟨_, args.append (passes_one ?_ calls rfl), List.mem_cons_self, rfl⟩
    intro operand member
    obtain ⟨v, among, rfl⟩ := List.mem_map.1 member
    exact usable v among

theorem CodeList.passes (fits : ∀ name count k, callees name count k →
      ∃ s, c.routine? k = some s ∧ s.params.length = count)
    {first : Nat} {es : List Expr} {is : List Instruction} {vs : List Value} {next : Nat} :
    CodeList callees scope first es is vs next →
      ∀ {known : List Value}, (∀ name w, scope.value? name = some w → Usable known w) →
        ∃ known', Passes c known is known' ∧ (∀ v ∈ vs, Usable known' v) ∧
          vs.length = es.length
  | .nil first, known, bound =>
    ⟨known, ⟨List.Subset.refl known, fun rest => rfl⟩, List.forall_mem_nil _, rfl⟩
  | .cons ofHead ofTail, known, bound => by
    obtain ⟨known₁, head, usable⟩ := ofHead.passes fits bound
    obtain ⟨known₂, tail, usables, length⟩ := ofTail.passes fits
      fun name w value => (bound name w value).mono head.1
    refine ⟨known₂, head.append tail, ?_, congrArg Nat.succ length⟩
    exact List.forall_mem_cons.2 ⟨usable.mono tail.1, usables⟩
end

/-- The code of an expression and its return pass the check: the parameters are known at the
    start, and the value of the expression at the end. -/
theorem check_filled {b : Assembly} {h : Handle} {r : Routine} {params : List String}
    {first next : Nat} {e : Expr} {is : List Instruction} {v : Value} (hr : b.routine? h = some r) (bodiless : r.body = none)
    (doubles : ∀ v ∈ r.values, v.type = .double)
    (code : Code b.callees (.ofParams params r.values) first e is v next) :
    (b.fill h r (is ++ [.ret v]) next).check h = true := by
  have fits : ∀ name count k, b.callees name count k → ∃ s,
      (b.fill h r (is ++ [.ret v]) next).routine? k = some s ∧ s.params.length = count := by
    rintro name count k ⟨found, arity⟩
    obtain ⟨s, alive, -⟩ := routine?_of_lookup found
    obtain ⟨s', alive', completes⟩ := grows_fill hr bodiless k s alive
    rw [arity_eq alive, ← completes.params_eq] at arity
    exact ⟨s', alive', arity⟩
  have usable : ∀ name w, (Scope.ofParams params r.values).value? name = some w →
      Usable r.values w := by
    intro name w value
    have param := Scope.mem_of_value?_ofParams value
    exact ⟨param, doubles w param⟩
  obtain ⟨known, ⟨-, passes⟩, last, double⟩ := code.passes fits usable
  rw [check, routine?_fill hr, if_pos rfl]
  simp only [passes]
  simp [checkBody, operandsFit, calleeFits, Instruction.operands, Instruction.dest?, last, double]

end Reckon
