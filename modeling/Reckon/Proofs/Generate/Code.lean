/-
  The code of an expression.

  `Code` says which instructions compute an expression, in what order and with which
  numbers for their values, and `CodeList` the same for the arguments of a call.  It is a
  relation on its own, apart from the generator and from any target.

  The main statement is `writes_expression`: into an open body of an unreliable target the
  generator adds instructions and does nothing else, whether it succeeds or fails, and
  where it succeeds what it added is the code of the expression.
-/
import Reckon.Proofs.Generate.Outcome
import Reckon.Proofs.Target.Unreliable

namespace Reckon

/-! ### The relation -/

abbrev Callees := String → Nat → Handle → Prop

/-- A call goes to the routine of its name if that takes as many arguments. -/
def Assembly.callees (a : Assembly) : Callees := fun name count h =>
  a.lookup name = some h ∧ a.arity h = count

mutual
/-- `Code callees scope first e is v next`: the instructions `is` leave the value of `e` in
    `v`, and number what they define from `first` up to `next`. -/
inductive Code (callees : Callees) (scope : Scope Value) :
    Nat → Expr → List Instruction → Value → Nat → Prop where
  | num (first : Nat) (x : Float) (s : Span) :
    Code callees scope first (.num x s) [.const ⟨first, .double⟩ x] ⟨first, .double⟩ (first + 1)
  | var {name : String} {v : Value} (first : Nat) (s : Span)
    (bound : scope.value? name = some v) : Code callees scope first (.var name s) [] v first
  | arith {first middle next : Nat} {c : Char} {op : Arith} {left right : Expr}
    {is js : List Instruction} {x y : Value} (s : Span)
    (operation : Operation.ofChar? c = some (.arith op))
    (ofLeft : Code callees scope first left is x middle)
    (ofRight : Code callees scope middle right js y next) :
    Code callees scope first (.bin c left right s)
      (is ++ (js ++ [.arith op ⟨next, .double⟩ x y])) ⟨next, .double⟩ (next + 1)
  | lessThan {first middle next : Nat} {c : Char} {left right : Expr}
    {is js : List Instruction} {x y : Value} (s : Span)
    (operation : Operation.ofChar? c = some .lessThan)
    (ofLeft : Code callees scope first left is x middle)
    (ofRight : Code callees scope middle right js y next) :
    Code callees scope first (.bin c left right s)
      (is ++ (js ++ [.lessThan ⟨next, .bool⟩ x y, .widen ⟨next + 1, .double⟩ ⟨next, .bool⟩]))
      ⟨next + 1, .double⟩ (next + 2)
  | call {first next : Nat} {callee : String} {h : Handle} {args : List Expr}
    {is : List Instruction} {vs : List Value} (s : Span)
    (found : callees callee args.length h) (ofArgs : CodeList callees scope first args is vs next) :
    Code callees scope first (.call callee args s)
      (is ++ [.call ⟨next, .double⟩ h vs]) ⟨next, .double⟩ (next + 1)

/-- `CodeList callees scope first es is vs next`: the instructions `is` leave the values of
    `es` in `vs`. -/
inductive CodeList (callees : Callees) (scope : Scope Value) :
    Nat → List Expr → List Instruction → List Value → Nat → Prop where
  | nil (first : Nat) : CodeList callees scope first [] [] [] first
  | cons {first middle next : Nat} {e : Expr} {es : List Expr} {is js : List Instruction}
    {v : Value} {vs : List Value} (ofHead : Code callees scope first e is v middle)
    (ofTail : CodeList callees scope middle es js vs next) :
    CodeList callees scope first (e :: es) (is ++ js) (v :: vs) next
end

/-! ### Writing into an open body -/

section Writing

variable {σ α β : Type} {t : Target σ Value Handle} {view : σ → Assembly}
variable {a : Assembly} {h : Handle} {r : Routine} {scope : Scope Value} {first : Nat}

/-- Generating by `p` adds instructions to the open body of `h` and takes numbers from
    `first` on; `Added` says what was added where it succeeds. -/
def Gen.Writes (view : σ → Assembly) (a : Assembly) (h : Handle) (r : Routine)
    (scope : Scope Value) (first : Nat) (p : Gen σ Value α)
    (Added : α → List Instruction → Nat → Prop) : Prop :=
  ∀ g code, view g.target = a.fill h r code first → g.scope = scope →
    ∃ more next, first ≤ next ∧
      view (p.outcome g).2.target = a.fill h r (code ++ more) next ∧
      (p.outcome g).2.scope = scope ∧
      ∀ x, (p.outcome g).1 = .ok x → Added x more next

namespace Gen

theorem Writes.bind {p : Gen σ Value α} {f : α → Gen σ Value β}
    {Added : α → List Instruction → Nat → Prop} {Added' : β → List Instruction → Nat → Prop}
    (hp : Writes view a h r scope first p Added)
    (hf : ∀ x more next, Added x more next →
      Writes view a h r scope next (f x) fun y more' next' => Added' y (more ++ more') next') :
    Writes view a h r scope first (p >>= f) Added' := by
  intro g code before inScope
  obtain ⟨more, next, le, during, inScope', added⟩ := hp g code before inScope
  rw [outcome_bind]
  rcases done : p.outcome g with ⟨e | x, g'⟩ <;> rw [done] at during inScope' added
  · exact ⟨more, next, le, during, inScope', fun y absurd => nomatch absurd⟩
  · obtain ⟨more', next', le', after, inScope'', added'⟩ :=
      hf x more next (added x rfl) g' (code ++ more) during inScope'
    refine ⟨more ++ more', next', Nat.le_trans le le', ?_, inScope'', added'⟩
    rw [after, List.append_assoc]

theorem Writes.mono {p : Gen σ Value α} {Added Added' : α → List Instruction → Nat → Prop}
    (hp : Writes view a h r scope first p Added)
    (imp : ∀ x more next, Added x more next → Added' x more next) :
    Writes view a h r scope first p Added' := by
  intro g code before inScope
  obtain ⟨more, next, le, after, inScope', added⟩ := hp g code before inScope
  exact ⟨more, next, le, after, inScope', fun x ok => imp x more next (added x ok)⟩

theorem writes_pure {x : α} {Added : α → List Instruction → Nat → Prop}
    (added : Added x [] first) : Writes view a h r scope first (pure x) Added := by
  intro g code before inScope
  refine ⟨[], first, Nat.le_refl _, by simpa using before, inScope, ?_⟩
  rintro _ ⟨⟩
  exact added

theorem writes_throw {d : Diagnostic} {Added : α → List Instruction → Nat → Prop} :
    Writes view a h r scope first (throw d : Gen σ Value α) Added := by
  intro g code before inScope
  exact ⟨[], first, Nat.le_refl _, by simpa using before, inScope, fun x absurd => nomatch absurd⟩

/-- A call to the target adds what the assembly's own operation adds. -/
theorem writes_ask {p : Position} {call : Emit σ α} {sure : Emit Assembly α} {x : α}
    {is : List Instruction} {next : Nat} (faithful : call.MayFail view sure)
    (le : first ≤ next)
    (run : ∀ code, sure.run (a.fill h r code first) = (.ok x, a.fill h r (code ++ is) next)) :
    Writes view a h r scope first (ask p call) fun y more after =>
      y = x ∧ more = is ∧ after = next := by
  intro g code before inScope
  rw [outcome_ask]
  rcases faithful g.target with as_sure | ⟨e, failed, kept⟩
  · rw [before, run code] at as_sure
    obtain ⟨answer, after⟩ := Prod.mk.inj as_sure
    refine ⟨is, next, le, after, inScope, ?_⟩
    rw [answer]
    rintro _ ⟨⟩
    exact ⟨rfl, rfl, rfl⟩
  · refine ⟨[], first, Nat.le_refl _, ?_, inScope, ?_⟩
    · simpa [kept] using before
    · rw [failed]
      exact fun y absurd => nomatch absurd

end Gen

end Writing

/-! ### The generator writes the code -/

section Generator

variable {σ : Type} {t : Target σ Value Handle} {view : σ → Assembly}
variable {a : Assembly} {h : Handle} {r : Routine} {scope : Scope Value}

namespace Gen

/-- An operation writes one instruction, a comparison two. -/
theorem writes_operation (ht : t.Unreliable view) (hr : a.routine? h = some r)
    (p : Position) (x y : Value) (first : Nat) (operation : Operation) :
    Writes view a h r scope first (ask p (emitOperation t x y operation)) fun v more next =>
      match operation with
      | .arith op => v = ⟨first, .double⟩ ∧ more = [.arith op ⟨first, .double⟩ x y] ∧
          next = first + 1
      | .lessThan => v = ⟨first + 1, .double⟩ ∧
          more = [.lessThan ⟨first, .bool⟩ x y, .widen ⟨first + 1, .double⟩ ⟨first, .bool⟩] ∧
          next = first + 2 := by
  cases operation with
  | arith op =>
    exact writes_ask (ht.arith op x y) (Nat.le_succ first) fun code =>
      Assembly.run_emit hr .double (.arith op · x y)
  | lessThan =>
    exact writes_ask (ht.lessThan x y) (Nat.le_add_right first 2) fun code =>
      Assembly.run_emitLessThan hr x y

mutual
/-- Generating an expression adds instructions to the open body; where it succeeds, they
    are the code of the expression. -/
theorem writes_expression (ht : t.Unreliable view) (hr : a.routine? h = some r) (first : Nat) :
    ∀ e : Expr, Writes view a h r scope first (expression t e) fun v more next =>
      Code a.callees scope first e more v next
  | .num x s => by
    rw [expression]
    refine (writes_ask (ht.literal x) (Nat.le_succ first) fun code =>
      Assembly.run_emit hr .double (.const · x)).mono ?_
    rintro v more next ⟨rfl, rfl, rfl⟩
    exact .num first x s
  | .var name s => by
    intro g code before inScope
    rw [expression, outcome_bind, outcome_get]
    simp only [inScope]
    cases bound : scope.value? name with
    | none => exact writes_throw g code before inScope
    | some v => exact writes_pure (.var first s bound) g code before inScope
  | .bin c left right s => by
    rw [expression]
    refine (writes_expression ht hr first left).bind fun x is middle ofLeft => ?_
    refine (writes_expression ht hr middle right).bind fun y js next ofRight => ?_
    cases operation : Operation.ofChar? c with
    | none => exact writes_throw
    | some op =>
      refine (writes_operation ht hr s.start x y next op).mono fun v more after added => ?_
      cases op with
      | arith op =>
        obtain ⟨rfl, rfl, rfl⟩ := added
        exact .arith s operation ofLeft ofRight
      | lessThan =>
        obtain ⟨rfl, rfl, rfl⟩ := added
        exact .lessThan s operation ofLeft ofRight
  | .call callee args s => by
    intro g code before inScope
    rw [expression, outcome_bind, outcome_targetState]
    simp only [ht.lookup, ht.arity, before, Assembly.lookup_fill hr, Assembly.arity_fill hr]
    cases found : a.lookup callee with
    | none => exact writes_throw g code before inScope
    | some k =>
      by_cases count : a.arity k = args.length
      · simp only [count, if_true]
        refine ((writes_expressions ht hr first args).bind fun vs is next ofArgs => ?_)
          g code before inScope
        have run : ∀ code, (Assembly.emitCall k vs).run (a.fill h r code next) =
            (.ok ⟨next, .double⟩, a.fill h r (code ++ [.call ⟨next, .double⟩ k vs]) (next + 1)) := by
          intro code
          rw [Assembly.run_emitCall hr, if_pos (Assembly.isSome_routine?_fill hr found)]
        refine (writes_ask (ht.call k vs) (Nat.le_succ next) run).mono ?_
        rintro v more after ⟨rfl, rfl, rfl⟩
        exact .call s ⟨found, count⟩ ofArgs
      · simp only [count, if_false]
        exact writes_throw g code before inScope

theorem writes_expressions (ht : t.Unreliable view) (hr : a.routine? h = some r)
    (first : Nat) :
    ∀ es : List Expr, Writes view a h r scope first (expressions t es) fun vs more next =>
      CodeList a.callees scope first es more vs next
  | [] => by
    rw [expressions]
    exact writes_pure (.nil first)
  | e :: es => by
    rw [expressions]
    refine (writes_expression ht hr first e).bind fun v is middle ofHead => ?_
    refine (writes_expressions ht hr middle es).bind fun vs js next ofTail => ?_
    exact writes_pure (by simpa using CodeList.cons ofHead ofTail)
end

end Gen

end Generator

end Reckon
