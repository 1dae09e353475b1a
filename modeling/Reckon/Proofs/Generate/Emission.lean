/-
  The calls that an expression makes.

  `Asked` is one call to a target, as a record of its calls notes it.  `Emission` says which
  calls generating an expression makes of any target at all, in which order and on which
  values, and how it ends: with the value of the expression, or where a call fails or the
  tree means nothing.  `Gen.Logged` ties the record of a run to the run itself.

  The main statements are `logged_expression`, that a recording target notes just these
  calls, and `Emission.follows`, that they go along the nodes of the tree in post-order and
  come to an end with the first one that is refused.
-/
import Mathlib.Data.List.Forall2
import Reckon.Proofs.Generate.Outcome
import Reckon.Target.Traced

namespace Reckon

variable {σ V F α β : Type}

/-! ### One call -/

def Answer.granted : Answer V F → Bool
  | .failed | .verdict false => false
  | _ => true

/-- The call `call`, made in the state `s` by `request` for the construct at `p`: the event
    that notes it, its result and the state it leaves. -/
inductive Asked (p : Position) (request : Request V F) (answer : α → Answer V F)
    (call : Emit σ α) (s : σ) : Event V F → Except Diagnostic α → σ → Prop where
  | granted {a : α} {s' : σ} (ran : call.run s = (.ok a, s')) :
    Asked p request answer call s ⟨request, answer a⟩ (.ok a) s'
  | refused {e : TargetError} {s' : σ} (ran : call.run s = (.error e, s')) :
    Asked p request answer call s ⟨request, .failed⟩ (.error ⟨e.toCause, p⟩) s'

namespace Asked

variable {p : Position} {request : Request V F} {answer : α → Answer V F} {call : Emit σ α}
variable {s s' : σ} {event : Event V F} {result : Except Diagnostic α}

theorem request_eq (asked : Asked p request answer call s event result s') :
    event.request = request := by
  cases asked <;> rfl

theorem answer_of_ok {a : α} (asked : Asked p request answer call s event (.ok a) s') :
    event = ⟨request, answer a⟩ := by
  cases asked
  rfl

end Asked

/-! ### Runs and their records -/

namespace Target

variable (t : Target σ V F) (s : Traced σ V F)

@[simp] theorem lookup_traced (name : String) :
    t.traced.lookup s name = t.lookup s.inner name := rfl

@[simp] theorem hasBody_traced (f : F) : t.traced.hasBody s f = t.hasBody s.inner f := rfl

@[simp] theorem arity_traced (f : F) : t.traced.arity s f = t.arity s.inner f := rfl

@[simp] theorem params_traced (f : F) : t.traced.params s f = t.params s.inner f := rfl

end Target

namespace Gen

/-- From the state `s`, and whatever was recorded before, `recorded` does what `plain` does
    and notes calls that `Made` speaks of, with the result and the state at the end. -/
def Logged (s : σ) (scope : Scope V) (recorded : Gen (Traced σ V F) V α) (plain : Gen σ V α)
    (Made : List (Event V F) → Except Diagnostic α → σ → Prop) : Prop :=
  ∀ before, ∃ events result s', Made events result s' ∧
    recorded.outcome ⟨⟨s, before⟩, scope⟩ = (result, ⟨⟨s', before ++ events⟩, scope⟩) ∧
    plain.outcome ⟨s, scope⟩ = (result, ⟨s', scope⟩)

variable {s : σ} {scope : Scope V}
variable {recorded : Gen (Traced σ V F) V α} {plain : Gen σ V α}
variable {Made : List (Event V F) → Except Diagnostic α → σ → Prop}

theorem run_record (request : Request V F) (answer : α → Answer V F) (call : Emit σ α) (s : σ)
    (before : List (Event V F)) :
    (Traced.record request answer call).run ⟨s, before⟩ =
      ((call.run s).1, ⟨(call.run s).2, before ++ [⟨request, match (call.run s).1 with
        | .ok a => answer a
        | .error _ => .failed⟩]⟩) := rfl

theorem logged_ask (s : σ) (scope : Scope V) (p : Position) (request : Request V F)
    (answer : α → Answer V F) (call : Emit σ α) :
    Logged s scope (ask p (Traced.record request answer call)) (ask p call)
      fun events result s' => ∃ event, events = [event] ∧
        Asked p request answer call s event result s' := by
  intro before
  rcases ran : call.run s with ⟨e | a, s'⟩
  · refine ⟨_, _, _, ⟨_, rfl, .refused ran⟩, ?_, ?_⟩
    · rw [outcome_ask, run_record, ran]
      rfl
    · rw [outcome_ask, ran]
      rfl
  · refine ⟨_, _, _, ⟨_, rfl, .granted ran⟩, ?_, ?_⟩
    · rw [outcome_ask, run_record, ran]
      rfl
    · rw [outcome_ask, ran]
      rfl

theorem logged_pure {a : α} (made : Made [] (.ok a) s) :
    Logged s scope (pure a : Gen (Traced σ V F) V α) (pure a) Made := by
  intro before
  refine ⟨[], .ok a, s, made, ?_, rfl⟩
  rw [List.append_nil]
  rfl

theorem logged_throw {d : Diagnostic} (made : Made [] (.error d) s) :
    Logged s scope (throw d : Gen (Traced σ V F) V α) (throw d) Made := by
  intro before
  refine ⟨[], .error d, s, made, ?_, rfl⟩
  rw [List.append_nil]
  rfl

theorem logged_targetState {next : Traced σ V F → Gen (Traced σ V F) V α}
    {nextPlain : σ → Gen σ V α}
    (logged : ∀ before, Logged s scope (next ⟨s, before⟩) (nextPlain s) Made) :
    Logged s scope (targetState >>= next) (targetState >>= nextPlain) Made := by
  intro before
  exact logged before before

theorem logged_get {next : Generator (Traced σ V F) V → Gen (Traced σ V F) V α}
    {nextPlain : Generator σ V → Gen σ V α}
    (logged : ∀ before, Logged s scope (next ⟨⟨s, before⟩, scope⟩) (nextPlain ⟨s, scope⟩) Made) :
    Logged s scope (get >>= next) (get >>= nextPlain) Made := by
  intro before
  exact logged before before

theorem Logged.mono {Made' : List (Event V F) → Except Diagnostic α → σ → Prop}
    (logged : Logged s scope recorded plain Made)
    (imp : ∀ events result s', Made events result s' → Made' events result s') :
    Logged s scope recorded plain Made' := by
  intro before
  obtain ⟨events, result, s', made, ran, ranPlain⟩ := logged before
  exact ⟨events, result, s', imp _ _ _ made, ran, ranPlain⟩

/-- The calls of what comes second follow those of what comes first, unless that fails. -/
theorem Logged.bind {next : α → Gen (Traced σ V F) V β} {nextPlain : α → Gen σ V β}
    {Made' : List (Event V F) → Except Diagnostic β → σ → Prop}
    (first : Logged s scope recorded plain Made)
    (stops : ∀ events d s', Made events (.error d) s' → Made' events (.error d) s')
    (goesOn : ∀ events a s₁, Made events (.ok a) s₁ →
      Logged s₁ scope (next a) (nextPlain a) fun more => Made' (events ++ more)) :
    Logged s scope (recorded >>= next) (plain >>= nextPlain) Made' := by
  intro before
  obtain ⟨events, result, s₁, made, ran, ranPlain⟩ := first before
  rw [outcome_bind, outcome_bind, ran, ranPlain]
  cases result with
  | error d => exact ⟨events, .error d, s₁, stops _ _ _ made, rfl, rfl⟩
  | ok a =>
    obtain ⟨more, result, s₂, made', ran', ranPlain'⟩ := goesOn _ _ _ made (before ++ events)
    rw [List.append_assoc] at ran'
    exact ⟨events ++ more, result, s₂, made', ran', ranPlain'⟩

end Gen

/-! ### The calls of an expression -/

def Operation.request (x y : V) : Operation → Request V F
  | .arith op => .arith op x y
  | .lessThan => .lessThan x y

mutual
/-- `Emission t scope s e events result s'`: generating `e` in the state `s`, with the names
    of `scope` bound, makes the calls `events` in this order, has the result and leaves the
    state `s'`.  Operands come before what is made of them, from left to right, and the first
    error ends it. -/
inductive Emission (t : Target σ V F) (scope : Scope V) :
    σ → Expr → List (Event V F) → Except Diagnostic V → σ → Prop where
  | literal {s s' : σ} {event : Event V F} {result : Except Diagnostic V} {x : Float} {p : Span}
    (asked : Asked p.start (.literal x) .value (t.literal x) s event result s') :
    Emission t scope s (.num x p) [event] result s'
  | bound {name : String} {v : V} (s : σ) (p : Span) (found : scope.value? name = some v) :
    Emission t scope s (.var name p) [] (.ok v) s
  | unbound {name : String} (s : σ) (p : Span) (missing : scope.value? name = none) :
    Emission t scope s (.var name p) [] (.error ⟨.unknownVariable name, p.start⟩) s
  | left {s s₁ : σ} {c : Char} {left right : Expr} {es : List (Event V F)} {d : Diagnostic}
    (p : Span) (stops : Emission t scope s left es (.error d) s₁) :
    Emission t scope s (.bin c left right p) es (.error d) s₁
  | right {s s₁ s₂ : σ} {c : Char} {left right : Expr} {es fs : List (Event V F)} {x : V}
    {d : Diagnostic} (p : Span) (ofLeft : Emission t scope s left es (.ok x) s₁)
    (stops : Emission t scope s₁ right fs (.error d) s₂) :
    Emission t scope s (.bin c left right p) (es ++ fs) (.error d) s₂
  | operator {s s₁ s₂ : σ} {c : Char} {left right : Expr} {es fs : List (Event V F)} {x y : V}
    (p : Span) (ofLeft : Emission t scope s left es (.ok x) s₁)
    (ofRight : Emission t scope s₁ right fs (.ok y) s₂) (unknown : Operation.ofChar? c = none) :
    Emission t scope s (.bin c left right p) (es ++ fs) (.error ⟨.invalidOperator c, p.start⟩) s₂
  | operation {s s₁ s₂ s₃ : σ} {c : Char} {op : Operation} {left right : Expr}
    {es fs : List (Event V F)} {x y : V} {event : Event V F} {result : Except Diagnostic V}
    {p : Span} (ofLeft : Emission t scope s left es (.ok x) s₁)
    (ofRight : Emission t scope s₁ right fs (.ok y) s₂) (known : Operation.ofChar? c = some op)
    (asked : Asked p.start (op.request x y) .value (Gen.emitOperation t x y op) s₂ event result
      s₃) :
    Emission t scope s (.bin c left right p) (es ++ fs ++ [event]) result s₃
  | unknown {callee : String} {args : List Expr} (s : σ) (p : Span)
    (missing : t.lookup s callee = none) :
    Emission t scope s (.call callee args p) [] (.error ⟨.unknownFunction callee, p.start⟩) s
  | count {callee : String} {f : F} {args : List Expr} (s : σ) (p : Span)
    (found : t.lookup s callee = some f) (differs : t.arity s f ≠ args.length) :
    Emission t scope s (.call callee args p) []
      (.error ⟨.argumentCount callee (t.arity s f) args.length, p.start⟩) s
  | arguments {s s₁ : σ} {callee : String} {f : F} {args : List Expr} {es : List (Event V F)}
    {d : Diagnostic} (p : Span) (found : t.lookup s callee = some f)
    (agrees : t.arity s f = args.length)
    (stops : EmissionList t scope s args es (.error d) s₁) :
    Emission t scope s (.call callee args p) es (.error d) s₁
  | call {s s₁ s₂ : σ} {callee : String} {f : F} {args : List Expr} {es : List (Event V F)}
    {vs : List V} {event : Event V F} {result : Except Diagnostic V} {p : Span}
    (found : t.lookup s callee = some f) (agrees : t.arity s f = args.length)
    (ofArgs : EmissionList t scope s args es (.ok vs) s₁)
    (asked : Asked p.start (.call f vs) .value (t.call f vs) s₁ event result s₂) :
    Emission t scope s (.call callee args p) (es ++ [event]) result s₂

inductive EmissionList (t : Target σ V F) (scope : Scope V) :
    σ → List Expr → List (Event V F) → Except Diagnostic (List V) → σ → Prop where
  | nil (s : σ) : EmissionList t scope s [] [] (.ok []) s
  | head {s s₁ : σ} {e : Expr} {es : List (Event V F)} {d : Diagnostic} (more : List Expr)
    (stops : Emission t scope s e es (.error d) s₁) :
    EmissionList t scope s (e :: more) es (.error d) s₁
  | tail {s s₁ s₂ : σ} {e : Expr} {more : List Expr} {es fs : List (Event V F)} {v : V}
    {d : Diagnostic} (ofHead : Emission t scope s e es (.ok v) s₁)
    (stops : EmissionList t scope s₁ more fs (.error d) s₂) :
    EmissionList t scope s (e :: more) (es ++ fs) (.error d) s₂
  | cons {s s₁ s₂ : σ} {e : Expr} {more : List Expr} {es fs : List (Event V F)} {v : V}
    {vs : List V} (ofHead : Emission t scope s e es (.ok v) s₁)
    (ofTail : EmissionList t scope s₁ more fs (.ok vs) s₂) :
    EmissionList t scope s (e :: more) (es ++ fs) (.ok (v :: vs)) s₂
end

namespace Gen

theorem logged_operation (t : Target σ V F) (s : σ) (scope : Scope V) (p : Position) (x y : V)
    (op : Operation) :
    Logged s scope (ask p (emitOperation t.traced x y op)) (ask p (emitOperation t x y op))
      fun events result s' => ∃ event, events = [event] ∧
        Asked p (op.request x y) .value (emitOperation t x y op) s event result s' := by
  cases op with
  | arith op => exact logged_ask s scope p _ _ _
  | lessThan => exact logged_ask s scope p _ _ _

mutual
/-- A recording target notes the calls of an expression, and generation does what it does
    without the record. -/
theorem logged_expression (t : Target σ V F) (scope : Scope V) :
    ∀ (e : Expr) (s : σ), Logged s scope (expression t.traced e) (expression t e)
      (Emission t scope s e)
  | .num x p, s => by
    rw [expression, expression]
    refine (logged_ask s scope p.start _ _ _).mono ?_
    rintro _ result s' ⟨event, rfl, asked⟩
    exact .literal asked
  | .var name p, s => by
    rw [expression, expression]
    refine logged_get fun before => ?_
    cases found : scope.value? name with
    | none => exact logged_throw (.unbound s p found)
    | some v => exact logged_pure (.bound s p found)
  | .bin c left right p, s => by
    rw [expression, expression]
    refine (logged_expression t scope left s).bind (fun _ _ _ => .left p) ?_
    intro es x s₁ ofLeft
    refine (logged_expression t scope right s₁).bind (fun _ _ _ => .right p ofLeft) ?_
    intro fs y s₂ ofRight
    cases known : Operation.ofChar? c with
    | none =>
      refine logged_throw ?_
      rw [List.append_nil]
      exact .operator p ofLeft ofRight known
    | some op =>
      refine (logged_operation t s₂ scope p.start x y op).mono ?_
      rintro _ result s₃ ⟨event, rfl, asked⟩
      rw [← List.append_assoc]
      exact .operation ofLeft ofRight known asked
  | .call callee args p, s => by
    rw [expression, expression]
    refine logged_targetState fun before => ?_
    simp only [Target.lookup_traced, Target.arity_traced]
    cases found : t.lookup s callee with
    | none => exact logged_throw (.unknown s p found)
    | some f =>
      by_cases agrees : t.arity s f = args.length
      · simp only [agrees, if_true]
        refine (logged_expressions t scope args s).bind
          (fun _ _ _ => .arguments p found agrees) ?_
        intro es vs s₁ ofArgs
        refine (logged_ask s₁ scope p.start _ _ _).mono ?_
        rintro _ result s₂ ⟨event, rfl, asked⟩
        exact .call found agrees ofArgs asked
      · simp only [agrees, if_false]
        exact logged_throw (.count s p found agrees)

theorem logged_expressions (t : Target σ V F) (scope : Scope V) :
    ∀ (es : List Expr) (s : σ), Logged s scope (expressions t.traced es) (expressions t es)
      (EmissionList t scope s es)
  | [], s => by
    rw [expressions, expressions]
    exact logged_pure (.nil s)
  | e :: more, s => by
    rw [expressions, expressions]
    refine (logged_expression t scope e s).bind (fun _ _ _ => .head more) ?_
    intro es v s₁ ofHead
    refine (logged_expressions t scope more s₁).bind (fun _ _ _ => .tail ofHead) ?_
    intro fs vs s₂ ofTail
    refine logged_pure ?_
    rw [List.append_nil]
    exact .cons ofHead ofTail
end

end Gen

/-! ### Post-order -/

namespace Expr

mutual
def postorder : Expr → List Expr
  | .num x p => [.num x p]
  | .var _ _ => []
  | .bin c left right p => left.postorder ++ right.postorder ++ [.bin c left right p]
  | .call callee args p => postorderList args ++ [.call callee args p]

def postorderList : List Expr → List Expr
  | [] => []
  | e :: es => e.postorder ++ postorderList es
end

end Expr

inductive Request.Emits : Request V F → Expr → Prop where
  | literal (x : Float) (p : Span) : Emits (.literal x) (.num x p)
  | operation {c : Char} {op : Operation} (x y : V) (left right : Expr) (p : Span)
    (known : Operation.ofChar? c = some op) : Emits (op.request x y) (.bin c left right p)
  | call {args : List Expr} {vs : List V} (callee : String) (f : F) (p : Span)
    (count : vs.length = args.length) : Emits (.call f vs) (.call callee args p)

/-! ### Following a plan -/

variable {τ τ' : Type}

/-- The events serve the tasks of a plan in their order, all of them where there is a result,
    and no event comes after one that was refused. -/
structure Follows (Serves : Request V F → τ → Prop) (plan : List τ) (events : List (Event V F))
    (result : Except Diagnostic α) : Prop where
  serves : ∃ reached, reached <+: plan ∧
    List.Forall₂ (fun event task => Serves event.request task) events reached ∧
    ((∃ a, result = .ok a) → reached = plan)
  stops : events.Pairwise fun event _ => event.answer.granted = true
  granted : (∃ a, result = .ok a) → ∀ event ∈ events, event.answer.granted = true

theorem pairwise_granted_append {events more : List (Event V F)}
    (granted : ∀ event ∈ events, event.answer.granted = true)
    (stops : more.Pairwise fun event _ => event.answer.granted = true) :
    (events ++ more).Pairwise fun event _ => event.answer.granted = true := by
  rw [List.pairwise_append]
  refine ⟨?_, stops, fun event member _ _ => granted event member⟩
  exact List.pairwise_iff_getElem.2 fun i j hi hj lt => granted _ (List.getElem_mem hi)

namespace Follows

variable {Serves : Request V F → τ → Prop} {plan more : List τ}
variable {events events' : List (Event V F)} {d : Diagnostic} {result : Except Diagnostic β}

theorem done (a : α) : Follows Serves [] [] (.ok a : Except Diagnostic α) where
  serves := ⟨[], List.prefix_refl _, .nil, fun _ => rfl⟩
  stops := .nil
  granted := nofun

theorem failed (plan : List τ) (d : Diagnostic) :
    Follows Serves plan [] (.error d : Except Diagnostic α) where
  serves := ⟨[], List.nil_prefix, .nil, nofun⟩
  stops := .nil
  granted := nofun

theorem error {plan' : List τ}
    (follows : Follows Serves plan events (.error d : Except Diagnostic α))
    (longer : plan <+: plan') : Follows Serves plan' events (.error d : Except Diagnostic β) where
  serves := by
    obtain ⟨reached, within, serves, -⟩ := follows.serves
    exact ⟨reached, within.trans longer, serves, nofun⟩
  stops := follows.stops
  granted := nofun

theorem ok {a : α} (follows : Follows Serves plan events (.ok a : Except Diagnostic α)) (b : β) :
    Follows Serves plan events (.ok b : Except Diagnostic β) where
  serves := by
    obtain ⟨reached, within, serves, all⟩ := follows.serves
    exact ⟨reached, within, serves, fun _ => all ⟨a, rfl⟩⟩
  stops := follows.stops
  granted := fun _ => follows.granted ⟨a, rfl⟩

theorem append {a : α} (first : Follows Serves plan events (.ok a : Except Diagnostic α))
    (second : Follows Serves more events' result) :
    Follows Serves (plan ++ more) (events ++ events') result where
  serves := by
    obtain ⟨_, -, serves, all⟩ := first.serves
    obtain rfl := all ⟨a, rfl⟩
    obtain ⟨reached, within, serves', all'⟩ := second.serves
    refine ⟨_ ++ reached, (List.prefix_append_right_inj _).2 within,
      List.rel_append serves serves', fun ok => ?_⟩
    rw [all' ok]
  stops := pairwise_granted_append (first.granted ⟨a, rfl⟩) second.stops
  granted := by
    intro ok event member
    rcases List.mem_append.1 member with old | new
    · exact first.granted ⟨a, rfl⟩ event old
    · exact second.granted ok event new

/-- A plan is broken off where all that was asked for was granted. -/
theorem breakOff {a : α} (follows : Follows Serves plan events (.ok a : Except Diagnostic α))
    (more : List τ) (d : Diagnostic) :
    Follows Serves (plan ++ more) events (.error d : Except Diagnostic β) := by
  rw [← List.append_nil events]
  exact follows.append (.failed more d)

theorem one {task : τ} {event : Event V F} (serves : Serves event.request task)
    (granted : (∃ b, result = .ok b) → event.answer.granted = true) :
    Follows Serves [task] [event] result where
  serves := ⟨[task], List.prefix_refl _, .cons serves .nil, fun _ => rfl⟩
  stops := List.pairwise_singleton _ _
  granted := by
    intro ok event' member
    rw [List.mem_singleton.1 member]
    exact granted ok

theorem refused {task : τ} {event : Event V F} (serves : Serves event.request task)
    (more : List τ) (d : Diagnostic) :
    Follows Serves (task :: more) [event] (.error d : Except Diagnostic α) where
  serves := ⟨[task], List.prefix_append [task] more, .cons serves .nil, nofun⟩
  stops := List.pairwise_singleton _ _
  granted := nofun

theorem asked {task : τ} {p : Position} {request : Request V F} {answer : β → Answer V F}
    {call : Emit σ β} {s s' : σ} {event : Event V F} (serves : Serves request task)
    (sure : ∀ b, (answer b).granted = true)
    (asked : Asked p request answer call s event result s') :
    Follows Serves [task] [event] result := by
  apply one
  · rw [asked.request_eq]
    exact serves
  · rintro ⟨b, rfl⟩
    rw [asked.answer_of_ok]
    exact sure b

theorem map {Serves' : Request V F → τ' → Prop} (f : τ → τ')
    (imp : ∀ request task, Serves request task → Serves' request (f task))
    (follows : Follows Serves plan events result) :
    Follows Serves' (plan.map f) events result where
  serves := by
    obtain ⟨reached, within, serves, all⟩ := follows.serves
    refine ⟨reached.map f, within.map f, ?_, fun ok => congrArg _ (all ok)⟩
    exact List.forall₂_map_right_iff.2 (serves.imp fun _ task => imp _ task)
  stops := follows.stops
  granted := follows.granted

theorem serves_of_mem (follows : Follows Serves plan events result) {event : Event V F}
    (member : event ∈ events) : ∃ task, Serves event.request task := by
  obtain ⟨reached, -, serves, -⟩ := follows.serves
  obtain ⟨i, lt, rfl⟩ := List.mem_iff_getElem.1 member
  exact ⟨_, serves.get lt (serves.length_eq ▸ lt)⟩

end Follows

section

variable {t : Target σ V F} {scope : Scope V}

theorem EmissionList.length_eq : ∀ {s s' : σ} {es : List Expr} {events : List (Event V F)}
    {vs : List V}, EmissionList t scope s es events (.ok vs) s' → vs.length = es.length
  | _, _, _, _, _, .nil _ => rfl
  | _, _, _, _, _, .cons _ ofTail => by rw [List.length_cons, List.length_cons, ofTail.length_eq]

mutual
/-- The calls of an expression go along its nodes in post-order. -/
theorem Emission.follows : ∀ {s s' : σ} {e : Expr} {events : List (Event V F)}
    {result : Except Diagnostic V}, Emission t scope s e events result s' →
    Follows Request.Emits e.postorder events result
  | _, _, _, _, _, .literal asked => .asked (.literal _ _) (fun _ => rfl) asked
  | _, _, _, _, _, .bound _ _ _ => .done _
  | _, _, _, _, _, .unbound _ _ _ => .failed _ _
  | _, _, _, _, _, .left _ stops => by
    rw [Expr.postorder, List.append_assoc]
    exact stops.follows.error (List.prefix_append _ _)
  | _, _, _, _, _, .right _ ofLeft stops =>
    (ofLeft.follows.append stops.follows).error (List.prefix_append _ _)
  | _, _, _, _, _, .operator _ ofLeft ofRight _ =>
    (ofLeft.follows.append ofRight.follows).breakOff _ _
  | _, _, _, _, _, .operation ofLeft ofRight known asked =>
    (ofLeft.follows.append ofRight.follows).append
      (.asked (.operation _ _ _ _ _ known) (fun _ => rfl) asked)
  | _, _, _, _, _, .unknown _ _ _ => .failed _ _
  | _, _, _, _, _, .count _ _ _ _ => .failed _ _
  | _, _, _, _, _, .arguments _ _ _ stops => stops.follows.error (List.prefix_append _ _)
  | _, _, _, _, _, .call _ _ ofArgs asked =>
    ofArgs.follows.append (.asked (.call _ _ _ ofArgs.length_eq) (fun _ => rfl) asked)

theorem EmissionList.follows : ∀ {s s' : σ} {es : List Expr} {events : List (Event V F)}
    {result : Except Diagnostic (List V)}, EmissionList t scope s es events result s' →
    Follows Request.Emits (Expr.postorderList es) events result
  | _, _, _, _, _, .nil _ => .done _
  | _, _, _, _, _, .head _ stops => stops.follows.error (List.prefix_append _ _)
  | _, _, _, _, _, .tail ofHead stops => ofHead.follows.append stops.follows
  | _, _, _, _, _, .cons ofHead ofTail => (ofHead.follows.append ofTail.follows).ok _
end

end

end Reckon
