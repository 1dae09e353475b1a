/-
  States of code generation.

  Whatever is generated into an assembly, the assembly is operated on and nothing else
  (`Operating`), so every state of a generator that operations and generation lead to holds
  an assembly that can be built (`Generator.Reached.built`).  The names bound in between may
  be any.
-/
import Reckon.Proofs.Assembly.Representation
import Reckon.Proofs.Generate.Outcome

namespace Reckon

open Assembly

namespace Gen

variable {α β : Type}

/-- Generating by `p` calls operations of the assembly and does nothing else to it. -/
def Operating (p : Gen Assembly Value α) : Prop :=
  ∀ g : Generator Assembly Value, g.target.Later (p.outcome g).2.target

theorem Operating.bind {p : Gen Assembly Value α} {f : α → Gen Assembly Value β}
    (first : p.Operating) (second : ∀ x, (f x).Operating) : (p >>= f).Operating := by
  intro g
  have before := first g
  rw [outcome_bind]
  generalize p.outcome g = came at before ⊢
  obtain ⟨e | x, g'⟩ := came
  · exact before
  · exact before.trans (second x g')

theorem operating_pure (x : α) : (pure x : Gen Assembly Value α).Operating := fun _ => .refl

theorem operating_throw (d : Diagnostic) : (throw d : Gen Assembly Value α).Operating :=
  fun _ => .refl

theorem operating_get : (get : Gen Assembly Value (Generator Assembly Value)).Operating :=
  fun _ => .refl

theorem operating_targetState : (targetState : Gen Assembly Value Assembly).Operating :=
  fun _ => .refl

theorem operating_setScope (scope : Scope Value) :
    (setScope scope : Gen Assembly Value Unit).Operating := fun _ => .refl

theorem operating_ask (p : Position) {call : Emit Assembly α}
    (operates : ∀ a : Assembly, a.Operates (call.run a).2) :
    (ask p call : Gen Assembly Value α).Operating := by
  intro g
  rw [outcome_ask]
  exact .single (operates g.target)

theorem operating_tell {call : StateM Assembly α}
    (operates : ∀ a : Assembly, a.Operates (call.run a).2) :
    (tell call : Gen Assembly Value α).Operating := fun g => .single (operates g.target)

mutual
theorem operating_expression : ∀ e : Expr, (expression target e).Operating
  | .num x s => by
    rw [expression]
    exact operating_ask _ fun a => .literal x
  | .var name s => by
    rw [expression]
    refine operating_get.bind fun g => ?_
    split
    · exact operating_pure _
    · exact operating_throw _
  | .bin op left right s => by
    rw [expression]
    refine (operating_expression left).bind fun x => (operating_expression right).bind fun y => ?_
    split
    · rename_i operation _
      apply operating_ask
      intro a
      cases operation with
      | arith op => exact .arith op x y
      | lessThan => exact .lessThan x y
    · exact operating_throw _
  | .call callee args s => by
    rw [expression]
    refine operating_targetState.bind fun state => ?_
    split
    · exact operating_throw _
    split
    · refine (operating_expressions args).bind fun values => ?_
      exact operating_ask _ fun a => .call _ values
    · exact operating_throw _

theorem operating_expressions : ∀ es : List Expr, (expressions target es).Operating
  | [] => by
    rw [expressions]
    exact operating_pure []
  | e :: es => by
    rw [expressions]
    refine (operating_expression e).bind fun v => ?_
    exact (operating_expressions es).bind fun vs => operating_pure _
end

theorem operating_prototype (p : Prototype) : (prototype target p).Operating := by
  refine operating_targetState.bind fun state => ?_
  split
  · split
    · exact operating_pure _
    · exact operating_throw _
  · exact operating_ask _ fun a => .declare p.name p.params

theorem operating_body (d : Definition) (h : Handle) : (body target d h).Operating := by
  refine (operating_ask _ fun a => .openBody h).bind fun _ => ?_
  refine operating_targetState.bind fun state => (operating_setScope _).bind fun _ => ?_
  refine (operating_expression d.body).bind fun value => ?_
  refine (operating_ask _ fun a => .ret value).bind fun _ => ?_
  refine (operating_tell fun a => .verify h).bind fun verdict => ?_
  cases verdict
  · exact operating_throw _
  · exact operating_pure _

theorem operating_definition (d : Definition) : (definition target d).Operating := by
  intro g
  have declares := operating_prototype d.proto g
  unfold definition
  simp only [outcome_bind, outcome_targetState]
  generalize (prototype target d.proto).outcome g = came at declares ⊢
  obtain ⟨e | h, g₁⟩ := came
  · exact declares
  simp only at declares ⊢
  cases target.hasBody g₁.target h with
  | true => exact declares
  | false =>
    have writes := operating_body d h g₁
    simp only [Bool.false_eq_true, if_false, outcome_bind, outcome_attempt, outcome_setScope]
    generalize (body target d h).outcome g₁ = came at writes ⊢
    obtain ⟨e | _, g₂⟩ := came
    · have between := declares.trans writes
      cases (target.lookup g.target d.proto.name).isSome with
      | true => exact between.tail (.discardBody h)
      | false => exact between.tail (.abandon h)
    · exact declares.trans writes

end Gen

/-- The states of a generator that operations on its assembly and generation lead to, with
    any names bound in between. -/
inductive Generator.Reached : Generator Assembly Value → Prop where
  | start (moduleName : String) (depthLimit : Nat) (scope : Scope Value) :
    Reached ⟨.empty moduleName depthLimit, scope⟩
  | operate {g : Generator Assembly Value} {a : Assembly} (before : Reached g)
    (operates : g.target.Operates a) (scope : Scope Value) : Reached ⟨a, scope⟩
  | expression {g : Generator Assembly Value} (before : Reached g) (e : Expr) :
    Reached ((Gen.expression Assembly.target e).outcome g).2
  | prototype {g : Generator Assembly Value} (before : Reached g) (p : Prototype) :
    Reached ((Gen.prototype Assembly.target p).outcome g).2
  | definition {g : Generator Assembly Value} (before : Reached g) (d : Definition) :
    Reached ((Gen.definition Assembly.target d).outcome g).2

theorem Assembly.Built.later {a b : Assembly} (built : a.Built) (later : a.Later b) :
    b.Built := by
  induction later with
  | refl => exact built
  | tail _ operates ih => exact .operate ih operates

theorem Generator.Reached.built {g : Generator Assembly Value} (reached : g.Reached) :
    g.target.Built := by
  induction reached with
  | start moduleName depthLimit => exact .empty moduleName depthLimit
  | operate _ operates _ ih => exact .operate ih operates
  | expression _ e ih => exact ih.later (Gen.operating_expression e _)
  | prototype _ p ih => exact ih.later (Gen.operating_prototype p _)
  | definition _ d ih => exact ih.later (Gen.operating_definition d _)

end Reckon
