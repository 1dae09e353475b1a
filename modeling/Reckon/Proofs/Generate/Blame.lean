/-
  What generation complains of.

  `Expr.Blamed`, `Prototype.Blamed` and `Definition.Blamed` list the diagnostics that a
  construct can be refused with, each at a node of the construct.  Whatever the target
  answers, generation ends with no other.
-/
import Reckon.Proofs.Generate.Outcome

namespace Reckon

/-! ### Diagnostics of a construct -/

inductive Expr.Blamed : Expr → Diagnostic → Prop where
  | literal {value : Float} {s : Span} (e : TargetError) :
    Blamed (.num value s) ⟨e.toCause, s.start⟩
  | unbound {name : String} {s : Span} : Blamed (.var name s) ⟨.unknownVariable name, s.start⟩
  | left {op : Char} {left right : Expr} {s : Span} {d : Diagnostic} (inside : left.Blamed d) :
    Blamed (.bin op left right s) d
  | right {op : Char} {left right : Expr} {s : Span} {d : Diagnostic} (inside : right.Blamed d) :
    Blamed (.bin op left right s) d
  | invalid {op : Char} {left right : Expr} {s : Span} :
    Blamed (.bin op left right s) ⟨.invalidOperator op, s.start⟩
  | operation {op : Char} {left right : Expr} {s : Span} (e : TargetError) :
    Blamed (.bin op left right s) ⟨e.toCause, s.start⟩
  | unknown {callee : String} {args : List Expr} {s : Span} :
    Blamed (.call callee args s) ⟨.unknownFunction callee, s.start⟩
  | count {callee : String} {args : List Expr} {s : Span} (expected : Nat) :
    Blamed (.call callee args s) ⟨.argumentCount callee expected args.length, s.start⟩
  | argument {callee : String} {args : List Expr} {s : Span} {arg : Expr} {d : Diagnostic}
    (among : arg ∈ args) (inside : arg.Blamed d) : Blamed (.call callee args s) d
  | call {callee : String} {args : List Expr} {s : Span} (e : TargetError) :
    Blamed (.call callee args s) ⟨e.toCause, s.start⟩

inductive Prototype.Blamed (p : Prototype) : Diagnostic → Prop where
  | mismatch (expected : Nat) :
    p.Blamed ⟨.prototypeMismatch p.name expected p.arity, p.span.start⟩
  | target (e : TargetError) : p.Blamed ⟨e.toCause, p.span.start⟩

inductive Definition.Blamed (d : Definition) : Diagnostic → Prop where
  | prototype {e : Diagnostic} (inside : d.proto.Blamed e) : d.Blamed e
  | redefinition : d.Blamed ⟨.redefinition d.proto.name, d.proto.span.start⟩
  | body {e : Diagnostic} (inside : d.body.Blamed e) : d.Blamed e
  | invalid : d.Blamed ⟨.invalidFunction d.proto.name, d.proto.span.start⟩

namespace Gen

variable {σ V F α β : Type} {t : Target σ V F} {Q : Diagnostic → Prop}

/-! ### Failures -/

def FailsWith (Q : Diagnostic → Prop) (p : Gen σ V α) : Prop :=
  ∀ g d g', p.outcome g = (.error d, g') → Q d

theorem FailsWith.mono {R : Diagnostic → Prop} {p : Gen σ V α} (fails : p.FailsWith Q)
    (weaker : ∀ d, Q d → R d) : p.FailsWith R := by
  intro g d g' failed
  exact weaker d (fails g d g' failed)

theorem FailsWith.bind {p : Gen σ V α} {f : α → Gen σ V β} (first : p.FailsWith Q)
    (second : ∀ a, (f a).FailsWith Q) : (p >>= f).FailsWith Q := by
  intro g d g' failed
  rw [outcome_bind] at failed
  split at failed
  · rename_i a between _
    exact second a between d g' failed
  · rename_i e between refused
    cases failed
    exact first g d g' refused

theorem failsWith_pure (a : α) : (pure a : Gen σ V α).FailsWith Q := by
  intro g d g' failed
  cases failed

theorem failsWith_throw {d : Diagnostic} (here : Q d) : (throw d : Gen σ V α).FailsWith Q := by
  intro g e g' failed
  cases failed
  exact here

theorem failsWith_get : (get : Gen σ V (Generator σ V)).FailsWith Q := by
  intro g d g' failed
  cases failed

theorem failsWith_targetState : (targetState : Gen σ V σ).FailsWith Q := by
  intro g d g' failed
  cases failed

theorem failsWith_setScope (scope : Scope V) : (setScope scope : Gen σ V Unit).FailsWith Q := by
  intro g d g' failed
  cases failed

theorem failsWith_tell (call : StateM σ α) : (tell call : Gen σ V α).FailsWith Q := by
  intro g d g' failed
  cases failed

theorem failsWith_ask {p : Position} (call : Emit σ α)
    (refused : ∀ e : TargetError, Q ⟨e.toCause, p⟩) : (ask p call : Gen σ V α).FailsWith Q := by
  intro g d g' failed
  rw [outcome_ask] at failed
  cases answer : (call.run g.target).1 with
  | ok a =>
    rw [answer] at failed
    cases failed
  | error e =>
    rw [answer] at failed
    cases failed
    exact refused e

/-! ### Constructs -/

mutual
theorem blamed_expression (t : Target σ V F) :
    ∀ e : Expr, (expression t e : Gen σ V V).FailsWith e.Blamed
  | .num value s => by
    rw [expression]
    exact failsWith_ask _ .literal
  | .var name s => by
    rw [expression]
    refine failsWith_get.bind fun g => ?_
    split
    · exact failsWith_pure _
    · exact failsWith_throw .unbound
  | .bin op left right s => by
    rw [expression]
    refine ((blamed_expression t left).mono fun _ => .left).bind fun x => ?_
    refine ((blamed_expression t right).mono fun _ => .right).bind fun y => ?_
    split
    · exact failsWith_ask _ .operation
    · exact failsWith_throw .invalid
  | .call callee args s => by
    rw [expression]
    refine failsWith_targetState.bind fun state => ?_
    split
    · exact failsWith_throw .unknown
    · split
      · refine FailsWith.bind ?_ fun values => failsWith_ask _ .call
        refine (blamed_expressions t args).mono fun d blamed => ?_
        obtain ⟨arg, among, inside⟩ := blamed
        exact .argument among inside
      · exact failsWith_throw (.count _)

theorem blamed_expressions (t : Target σ V F) : ∀ es : List Expr,
    (expressions t es : Gen σ V (List V)).FailsWith fun d => ∃ e ∈ es, e.Blamed d
  | [] => by
    rw [expressions]
    exact failsWith_pure _
  | e :: es => by
    rw [expressions]
    refine FailsWith.bind ?_ fun v => FailsWith.bind ?_ fun vs => failsWith_pure _
    · exact (blamed_expression t e).mono fun d inside => ⟨e, List.mem_cons_self, inside⟩
    · refine (blamed_expressions t es).mono fun d blamed => ?_
      obtain ⟨e', among, inside⟩ := blamed
      exact ⟨e', List.mem_cons_of_mem e among, inside⟩
end

theorem blamed_prototype (t : Target σ V F) (p : Prototype) :
    (prototype t p : Gen σ V F).FailsWith p.Blamed := by
  refine failsWith_targetState.bind fun state => ?_
  split
  · split
    · exact failsWith_pure _
    · exact failsWith_throw (.mismatch _)
  · exact failsWith_ask _ .target

theorem blamed_body (t : Target σ V F) (d : Definition) (f : F) :
    (body t d f : Gen σ V Unit).FailsWith d.Blamed := by
  have refused : ∀ e : TargetError, d.Blamed ⟨e.toCause, d.proto.span.start⟩ :=
    fun e => .prototype (.target e)
  refine (failsWith_ask _ refused).bind fun _ => ?_
  refine failsWith_targetState.bind fun state => ?_
  refine (failsWith_setScope _).bind fun _ => ?_
  refine ((blamed_expression t d.body).mono fun _ => .body).bind fun value => ?_
  refine (failsWith_ask _ refused).bind fun _ => ?_
  refine (failsWith_tell _).bind fun verdict => ?_
  cases verdict
  · exact failsWith_throw .invalid
  · exact failsWith_pure _

theorem blamed_definition (t : Target σ V F) (d : Definition) :
    (definition t d : Gen σ V F).FailsWith d.Blamed := by
  intro g e g' failed
  unfold definition at failed
  simp only [outcome_bind, outcome_targetState] at failed
  rcases prototyped : (prototype t d.proto).outcome g with ⟨e₁ | f, g₁⟩ <;>
    rw [prototyped] at failed <;> simp only at failed
  · cases failed
    exact .prototype (blamed_prototype t d.proto g e g' prototyped)
  cases present : t.hasBody g₁.target f with
  | true =>
    simp only [present, if_true, outcome_bind, outcome_throw] at failed
    cases failed
    exact .redefinition
  | false =>
    simp only [present, Bool.false_eq_true, if_false, outcome_bind, outcome_attempt,
      outcome_setScope] at failed
    rcases body : (body t d f).outcome g₁ with ⟨e₂ | _, g₂⟩ <;>
      rw [body] at failed <;> simp only [outcome_bind, outcome_tell, outcome_throw] at failed
    · -- The error of the body is reported once what was written is taken back.
      cases failed
      exact blamed_body t d f g₁ e g₂ body
    · cases failed

end Gen

end Reckon
