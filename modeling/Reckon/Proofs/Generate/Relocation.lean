/-
  Generating what stands further on.

  Spans reach the target of generation nowhere: they only say where a diagnostic is put.  So
  a construct that stands `n` bytes further on gets the same calls, and what is complained of
  it stands as much further on.
-/
import Reckon.Proofs.Generate.Outcome
import Reckon.Proofs.Grammar.Relocation

namespace Reckon.Gen

variable {σ V F α β : Type} {n : Nat}

def movedResult (n : Nat) (done : Except Diagnostic α × Generator σ V) :
    Except Diagnostic α × Generator σ V :=
  (done.1.mapError (Diagnostic.moved n), done.2)

def Moves (n : Nat) (p q : Gen σ V α) : Prop := ∀ g, q.outcome g = movedResult n (p.outcome g)

theorem Moves.bind {p q : Gen σ V α} {f k : α → Gen σ V β} (first : Moves n p q)
    (second : ∀ a, Moves n (f a) (k a)) : Moves n (p >>= f) (q >>= k) := by
  intro g
  rw [outcome_bind, outcome_bind, first g]
  rcases p.outcome g with ⟨d | a, g'⟩
  · rfl
  · exact second a g'

theorem moves_pure (a : α) : Moves n (pure a : Gen σ V α) (pure a) := fun _ => rfl

theorem moves_get : Moves n (get : Gen σ V (Generator σ V)) get := fun _ => rfl

theorem moves_targetState : Moves n (targetState : Gen σ V σ) targetState := fun _ => rfl

theorem moves_setScope (scope : Scope V) :
    Moves n (setScope scope : Gen σ V Unit) (setScope scope) := fun _ => rfl

theorem moves_tell (call : StateM σ α) : Moves n (tell call : Gen σ V α) (tell call) :=
  fun _ => rfl

theorem moves_throw (cause : Cause) (p : Position) :
    Moves n (throw ⟨cause, p⟩ : Gen σ V α) (throw ⟨cause, p.moved n⟩) := fun _ => rfl

theorem moves_ask (p : Position) (call : Emit σ α) :
    Moves n (ask p call : Gen σ V α) (ask (p.moved n) call) := by
  intro g
  rw [outcome_ask, outcome_ask, movedResult]
  cases (call.run g.target).1 <;> rfl

mutual
theorem moves_expression (t : Target σ V F) (n : Nat) :
    ∀ e : Expr, Moves n (expression t e : Gen σ V V) (expression t (e.moved n))
  | .num value s => by
    rw [Expr.moved, expression, expression]
    exact moves_ask _ _
  | .var name s => by
    rw [Expr.moved, expression, expression]
    refine moves_get.bind fun g => ?_
    split
    · exact moves_pure _
    · exact moves_throw _ _
  | .bin op left right s => by
    rw [Expr.moved, expression, expression]
    refine (moves_expression t n left).bind fun x => ?_
    refine (moves_expression t n right).bind fun y => ?_
    split
    · exact moves_ask _ _
    · exact moves_throw _ _
  | .call callee args s => by
    have count : (Expr.movedList n args).length = args.length := by simp
    rw [Expr.moved, expression, expression, count]
    refine moves_targetState.bind fun state => ?_
    split
    · exact moves_throw _ _
    · split
      · exact (moves_expressions t n args).bind fun values => moves_ask _ _
      · exact moves_throw _ _

theorem moves_expressions (t : Target σ V F) (n : Nat) : ∀ es : List Expr,
    Moves n (expressions t es : Gen σ V (List V)) (expressions t (Expr.movedList n es))
  | [] => by
    rw [Expr.movedList, expressions]
    exact moves_pure _
  | e :: es => by
    rw [Expr.movedList, expressions, expressions]
    refine (moves_expression t n e).bind fun v => ?_
    exact (moves_expressions t n es).bind fun vs => moves_pure _
end

theorem moves_prototype (t : Target σ V F) (p : Prototype) :
    Moves n (prototype t p : Gen σ V F) (prototype t (p.moved n)) := by
  refine moves_targetState.bind fun state => ?_
  have name : (p.moved n).name = p.name := rfl
  have arity : (p.moved n).arity = p.arity := rfl
  rw [name, arity]
  split
  · split
    · exact moves_pure _
    · exact moves_throw _ _
  · exact moves_ask _ _

theorem moves_body (t : Target σ V F) (d : Definition) (f : F) :
    Moves n (body t d f : Gen σ V Unit) (body t (d.moved n) f) := by
  refine (moves_ask _ _).bind fun _ => ?_
  refine moves_targetState.bind fun state => ?_
  refine (moves_setScope _).bind fun _ => ?_
  refine (moves_expression t n d.body).bind fun value => ?_
  refine (moves_ask _ _).bind fun _ => ?_
  refine (moves_tell _).bind fun verdict => ?_
  cases verdict
  · exact moves_throw _ _
  · exact moves_pure _

theorem moves_definition (t : Target σ V F) (d : Definition) :
    Moves n (definition t d : Gen σ V F) (definition t (d.moved n)) := by
  intro g
  have prototyped := moves_prototype (n := n) t d.proto g
  have proto : (d.moved n).proto = d.proto.moved n := rfl
  unfold definition
  simp only [outcome_bind, outcome_targetState, proto, prototyped]
  rcases (prototype t d.proto).outcome g with ⟨e | f, g₁⟩
  · rfl
  simp only [movedResult, mapError_ok]
  cases present : t.hasBody g₁.target f with
  | true => rfl
  | false =>
    have written := moves_body (n := n) t d f g₁
    simp only [Bool.false_eq_true, if_false, outcome_bind, outcome_attempt, outcome_setScope,
      written]
    rcases (body t d f).outcome g₁ with ⟨e | _, g₂⟩
    · rfl
    · rfl

end Reckon.Gen
