/-
  The calls that a definition makes.

  `Course` says which calls generating a whole function makes of any target, whatever the
  target answers: it is looked up or declared, its body is opened, the body's expression is
  emitted, its value returned and the function verified.  The first error ends that, and
  once the body was asked for one more call takes it back.

  The main statement is `generation_follows_protocol`: a record of the calls is such a
  course, its calls come in that order with none after one that was refused, the emissions
  among them go along the nodes of the body in post-order, generation succeeds just when
  nothing is missing, and what is taken back is the function that was begun.
-/
import Reckon.Proofs.Generate.Emission

namespace Reckon

variable {σ V F : Type}

/-! ### The course -/

inductive Declaration (t : Target σ V F) (p : Prototype) (s : σ) :
    List (Event V F) → Except Diagnostic F → σ → Prop where
  | found {f : F} (named : t.lookup s p.name = some f) (agrees : t.arity s f = p.arity) :
    Declaration t p s [] (.ok f) s
  | mismatch {f : F} (named : t.lookup s p.name = some f) (differs : t.arity s f ≠ p.arity) :
    Declaration t p s []
      (.error ⟨.prototypeMismatch p.name (t.arity s f) p.arity, p.span.start⟩) s
  | declared {s' : σ} {event : Event V F} {result : Except Diagnostic F}
    (unnamed : t.lookup s p.name = none)
    (asked : Asked p.span.start (.declare p.name p.arity) .function (t.declare p.name p.params) s
      event result s') :
    Declaration t p s [event] result s'

inductive BodyCalls (t : Target σ V F) (d : Definition) (f : F) (s : σ) :
    List (Event V F) → Except Diagnostic Unit → σ → Prop where
  | unopened {s₁ : σ} {e : TargetError} (opened : (t.openBody f).run s = (.error e, s₁)) :
    BodyCalls t d f s [⟨.openBody f, .failed⟩] (.error ⟨e.toCause, d.proto.span.start⟩) s₁
  | stopped {s₁ s₂ : σ} {events : List (Event V F)} {e : Diagnostic}
    (opened : (t.openBody f).run s = (.ok (), s₁))
    (emission : Emission t (.ofParams d.proto.params (t.params s₁ f)) s₁ d.body events (.error e)
      s₂) :
    BodyCalls t d f s (⟨.openBody f, .done⟩ :: events) (.error e) s₂
  | unreturned {s₁ s₂ s₃ : σ} {events : List (Event V F)} {v : V} {e : TargetError}
    (opened : (t.openBody f).run s = (.ok (), s₁))
    (emission : Emission t (.ofParams d.proto.params (t.params s₁ f)) s₁ d.body events (.ok v) s₂)
    (returned : (t.ret v).run s₂ = (.error e, s₃)) :
    BodyCalls t d f s (⟨.openBody f, .done⟩ :: events ++ [⟨.ret v, .failed⟩])
      (.error ⟨e.toCause, d.proto.span.start⟩) s₃
  | verified {s₁ s₂ s₃ s₄ : σ} {events : List (Event V F)} {v : V} {valid : Bool}
    (opened : (t.openBody f).run s = (.ok (), s₁))
    (emission : Emission t (.ofParams d.proto.params (t.params s₁ f)) s₁ d.body events (.ok v) s₂)
    (returned : (t.ret v).run s₂ = (.ok (), s₃))
    (verified : (t.verify f).run s₃ = (valid, s₄)) :
    BodyCalls t d f s
      (⟨.openBody f, .done⟩ :: events ++ [⟨.ret v, .done⟩, ⟨.verify f, .verdict valid⟩])
      (if valid then .ok () else .error ⟨.invalidFunction d.proto.name, d.proto.span.start⟩) s₄

/-- The call that takes back what was made of `f`: its body, if it was there before, and
    otherwise the whole of it. -/
def takingBack (foundBefore : Bool) (f : F) : Request V F :=
  if foundBefore then .discardBody f else .abandon f

/-- `Course t d s calls cleanup result`: generating `d` in the state `s` makes the calls
    `calls`, then those of `cleanup`, and has the result. -/
inductive Course (t : Target σ V F) (d : Definition) (s : σ) :
    List (Event V F) → List (Event V F) → Except Diagnostic F → Prop where
  | undeclared {s₁ : σ} {calls : List (Event V F)} {e : Diagnostic}
    (declaration : Declaration t d.proto s calls (.error e) s₁) :
    Course t d s calls [] (.error e)
  | redefinition {s₁ : σ} {calls : List (Event V F)} {f : F}
    (declaration : Declaration t d.proto s calls (.ok f) s₁) (present : t.hasBody s₁ f = true) :
    Course t d s calls [] (.error ⟨.redefinition d.proto.name, d.proto.span.start⟩)
  | failed {s₁ s₂ : σ} {calls more : List (Event V F)} {f : F} {e : Diagnostic}
    (declaration : Declaration t d.proto s calls (.ok f) s₁) (bodiless : t.hasBody s₁ f = false)
    (body : BodyCalls t d f s₁ more (.error e) s₂) :
    Course t d s (calls ++ more)
      [⟨takingBack (t.lookup s d.proto.name).isSome f, .done⟩] (.error e)
  | generated {s₁ s₂ : σ} {calls more : List (Event V F)} {f : F}
    (declaration : Declaration t d.proto s calls (.ok f) s₁) (bodiless : t.hasBody s₁ f = false)
    (body : BodyCalls t d f s₁ more (.ok ()) s₂) :
    Course t d s (calls ++ more) [] (.ok f)

/-! ### Generation takes the course -/

namespace Gen

theorem logged_verify (s : σ) (scope : Scope V) (t : Target σ V F) (f : F) :
    Logged s scope (tell (t.traced.verify f)) (tell (t.verify f)) fun events result s' =>
      ∃ valid, events = [⟨.verify f, .verdict valid⟩] ∧ result = .ok valid ∧
        (t.verify f).run s = (valid, s') := by
  intro before
  exact ⟨_, _, _, ⟨_, rfl, rfl, rfl⟩, rfl, rfl⟩

theorem logged_prototype (t : Target σ V F) (scope : Scope V) (p : Prototype) (s : σ) :
    Logged s scope (prototype t.traced p) (prototype t p) (Declaration t p s) := by
  refine logged_targetState fun before => ?_
  simp only [Target.lookup_traced, Target.arity_traced]
  cases named : t.lookup s p.name with
  | none =>
    refine (logged_ask s scope p.span.start _ _ _).mono ?_
    rintro _ result s' ⟨event, rfl, asked⟩
    exact .declared named asked
  | some f =>
    by_cases agrees : t.arity s f = p.arity
    · simp only [agrees, if_true]
      exact logged_pure (.found named agrees)
    · simp only [agrees, if_false]
      exact logged_throw (.mismatch named agrees)

/-- The body from its expression on, once it is open and its parameters are bound. -/
theorem logged_closing (t : Target σ V F) (d : Definition) (f : F) {s s₁ : σ}
    (opened : (t.openBody f).run s = (.ok (), s₁)) :
    Logged s₁ (.ofParams d.proto.params (t.params s₁ f))
      (do
        let value ← expression t.traced d.body
        ask d.proto.span.start (t.traced.ret value)
        unless ← tell (t.traced.verify f) do
          throw ⟨.invalidFunction d.proto.name, d.proto.span.start⟩)
      (do
        let value ← expression t d.body
        ask d.proto.span.start (t.ret value)
        unless ← tell (t.verify f) do
          throw ⟨.invalidFunction d.proto.name, d.proto.span.start⟩)
      fun events => BodyCalls t d f s (⟨.openBody f, .done⟩ :: events) := by
  refine (logged_expression t _ d.body s₁).bind (fun _ _ _ => .stopped opened) ?_
  intro events v s₂ emission
  refine (logged_ask s₂ _ d.proto.span.start _ _ _).bind ?_ ?_
  · rintro _ e s₃ ⟨event, rfl, asked⟩
    cases asked with
    | refused ran => exact .unreturned opened emission ran
  · rintro _ _ s₃ ⟨event, rfl, asked⟩
    cases asked with
    | granted returned =>
      refine (logged_verify s₃ _ t f).bind ?_ ?_
      · rintro _ _ _ ⟨valid, -, absurd, -⟩
        cases absurd
      · rintro _ valid s₄ ⟨_, rfl, eq, ran⟩
        cases eq
        have made := BodyCalls.verified opened emission returned ran
        cases valid with
        | true => exact logged_pure (by simpa using made)
        | false => exact logged_throw (by simpa using made)

theorem body_calls (t : Target σ V F) (d : Definition) (f : F) (s : σ) (scope : Scope V)
    (before : List (Event V F)) :
    ∃ events result s' scope', BodyCalls t d f s events result s' ∧
      (body t.traced d f).outcome ⟨⟨s, before⟩, scope⟩ =
        (result, ⟨⟨s', before ++ events⟩, scope'⟩) ∧
      (body t d f).outcome ⟨s, scope⟩ = (result, ⟨s', scope'⟩) := by
  obtain ⟨_, result, s₁, ⟨event, rfl, asked⟩, ran, ranPlain⟩ :=
    logged_ask s scope d.proto.span.start (.openBody f) (fun _ => .done) (t.openBody f) before
  have opening : (ask d.proto.span.start (t.traced.openBody f)).outcome ⟨⟨s, before⟩, scope⟩ =
      (result, ⟨⟨s₁, before ++ [event]⟩, scope⟩) := ran
  rw [body, body, outcome_bind, outcome_bind, opening, ranPlain]
  cases asked with
  | refused opened => exact ⟨_, _, s₁, scope, .unopened opened, rfl, rfl⟩
  | granted opened =>
    obtain ⟨events, result, s', made, closing, closingPlain⟩ :=
      logged_closing t d f opened (before ++ [⟨.openBody f, .done⟩])
    rw [List.append_assoc] at closing
    exact ⟨_, result, s', _, made, closing, closingPlain⟩

/-- Generating a function makes the calls of a course, and with a record it does what it does
    without one. -/
theorem definition_course (t : Target σ V F) (d : Definition) (s : σ) (scope : Scope V)
    (before : List (Event V F)) :
    ∃ calls cleanup result s' scope', Course t d s calls cleanup result ∧
      (definition t.traced d).outcome ⟨⟨s, before⟩, scope⟩ =
        (result, ⟨⟨s', before ++ (calls ++ cleanup)⟩, scope'⟩) ∧
      (definition t d).outcome ⟨s, scope⟩ = (result, ⟨s', scope'⟩) := by
  obtain ⟨calls, handle, s₁, declaration, ran, ranPlain⟩ :=
    logged_prototype t scope d.proto s before
  unfold definition
  simp only [outcome_bind, outcome_targetState, Target.lookup_traced, Target.hasBody_traced]
  rw [ran, ranPlain]
  cases handle with
  | error e =>
    refine ⟨calls, [], .error e, s₁, scope, .undeclared declaration, ?_, rfl⟩
    rw [List.append_nil]
  | ok f =>
    cases bodied : t.hasBody s₁ f with
    | true =>
      refine ⟨calls, [], _, s₁, scope, .redefinition declaration bodied, ?_, ?_⟩
      · simp only [bodied, if_true, outcome_bind, outcome_throw, List.append_nil]
      · simp only [bodied, if_true, outcome_bind, outcome_throw]
    | false =>
      obtain ⟨more, result, s₂, scope', made, body, bodyPlain⟩ :=
        body_calls t d f s₁ scope (before ++ calls)
      simp only [bodied, Bool.false_eq_true, if_false, outcome_bind, outcome_attempt,
        outcome_setScope, body, bodyPlain]
      cases result with
      | ok =>
        refine ⟨calls ++ more, [], .ok f, s₂, [], .generated declaration bodied made, ?_, rfl⟩
        rw [List.append_nil, ← List.append_assoc]
        rfl
      | error e =>
        have course := Course.failed declaration bodied made
        by_cases found : (t.lookup s d.proto.name).isSome = true
        · rw [found] at course
          simp only [found, if_true]
          refine ⟨calls ++ more, _, .error e, _, [], course, ?_, rfl⟩
          rw [← List.append_assoc, ← List.append_assoc]
          rfl
        · rw [Bool.eq_false_iff.2 found] at course
          simp only [found, Bool.false_eq_true, if_false]
          refine ⟨calls ++ more, _, .error e, _, [], course, ?_, rfl⟩
          rw [← List.append_assoc, ← List.append_assoc]
          rfl

end Gen

/-! ### The protocol -/

inductive Task where
  | declare
  | openBody
  | emit (node : Expr)
  | ret
  | verify

/-- The calls of a definition when nothing goes wrong. -/
def Definition.plan (d : Definition) (foundBefore : Bool) : List Task :=
  (if foundBefore then [] else [.declare]) ++
    ([.openBody] ++ (d.body.postorder.map .emit ++ ([.ret] ++ [.verify])))

inductive Request.Serves : Request V F → Task → Prop where
  | declare (name : String) (arity : Nat) : Serves (.declare name arity) .declare
  | openBody (f : F) : Serves (.openBody f) .openBody
  | emit {request : Request V F} {node : Expr} (emits : request.Emits node) :
    Serves request (.emit node)
  | ret (v : V) : Serves (.ret v) .ret
  | verify (f : F) : Serves (.verify f) .verify

structure Protocol (t : Target σ V F) (d : Definition) (s : σ) (calls cleanup : List (Event V F))
    (result : Except Diagnostic F) : Prop where
  course : Course t d s calls cleanup result
  /-- The calls are an initial part of the plan, with none after one that was refused. -/
  follows : Follows Request.Serves (d.plan (t.lookup s d.proto.name).isSome) calls result
  /-- A function that is not found is declared before all else. -/
  declares : t.lookup s d.proto.name = none →
    ∃ answer, calls.head? = some ⟨.declare d.proto.name d.proto.arity, answer⟩
  /-- There is a result just when every call was granted and the last one verified it. -/
  succeeds : (∃ f, result = .ok f) ↔ (∀ event ∈ calls, event.answer.granted = true) ∧
    ∃ f, calls.getLast? = some ⟨.verify f, .verdict true⟩
  /-- Where generation fails that has begun with a body, one call takes it back. -/
  takesBack : ∀ f answer, ⟨.openBody f, answer⟩ ∈ calls → (∃ e, result = .error e) →
    cleanup = [⟨takingBack (t.lookup s d.proto.name).isSome f, .done⟩]
  /-- Otherwise nothing is taken back. -/
  keeps : ((∀ f answer, ⟨.openBody f, answer⟩ ∉ calls) ∨ ∃ f, result = .ok f) → cleanup = []

section

variable {t : Target σ V F} {d : Definition} {s s' : σ} {f : F} {events calls : List (Event V F)}

theorem Declaration.follows {result : Except Diagnostic F}
    (declaration : Declaration t d.proto s events result s') :
    Follows Request.Serves (if (t.lookup s d.proto.name).isSome then [] else [.declare]) events
      result := by
  cases declaration with
  | found named agrees =>
    rw [named]
    exact .done _
  | mismatch named differs =>
    rw [named]
    exact .failed _ _
  | declared unnamed asked =>
    rw [unnamed]
    exact .asked (.declare _ _) (fun _ => rfl) asked

theorem BodyCalls.follows {result : Except Diagnostic Unit}
    (body : BodyCalls t d f s events result s') :
    Follows Request.Serves
      ([.openBody] ++ (d.body.postorder.map .emit ++ ([.ret] ++ [.verify]))) events result := by
  -- The body is open, and its emissions follow.
  have emitted : ∀ {s₁ s₂ : σ} {es : List (Event V F)} {scope : Scope V} {r : Except Diagnostic V},
      Emission t scope s₁ d.body es r s₂ →
      Follows Request.Serves ([.openBody] ++ d.body.postorder.map .emit)
        (⟨.openBody f, .done⟩ :: es) r := by
    intro s₁ s₂ es scope r emission
    have opens : Follows Request.Serves [.openBody]
        ([⟨.openBody f, .done⟩] : List (Event V F)) (.ok ()) := .one (.openBody f) fun _ => rfl
    exact opens.append (emission.follows.map Task.emit fun _ _ => .emit)
  cases body with
  | unopened opened => exact .refused (.openBody f) _ _
  | stopped opened emission =>
    rw [← List.append_assoc]
    exact (emitted emission).error (List.prefix_append _ _)
  | unreturned opened emission returned =>
    rw [← List.append_assoc]
    exact (emitted emission).append (.refused (.ret _) _ _)
  | @verified s₁ s₂ s₃ s₄ es v valid opened emission returned verified =>
    rw [← List.append_assoc]
    have returns : Follows Request.Serves [.ret] ([⟨.ret v, .done⟩] : List (Event V F))
        (.ok ()) := .one (.ret v) fun _ => rfl
    cases valid with
    | true => exact (emitted emission).append (returns.append (.one (.verify f) fun _ => rfl))
    | false => exact (emitted emission).append (returns.append (.refused (.verify f) _ _))

theorem Course.follows {cleanup : List (Event V F)} {result : Except Diagnostic F}
    (course : Course t d s calls cleanup result) :
    Follows Request.Serves (d.plan (t.lookup s d.proto.name).isSome) calls result := by
  cases course with
  | undeclared declaration => exact declaration.follows.error (List.prefix_append _ _)
  | redefinition declaration present => exact declaration.follows.breakOff _ _
  | failed declaration bodiless body =>
    exact declaration.follows.append (body.follows.error (List.prefix_refl _))
  | generated declaration bodiless body =>
    exact declaration.follows.append (body.follows.ok _)

/-! ### Which calls there are -/

theorem Declaration.mem {result : Except Diagnostic F} {event : Event V F}
    (declaration : Declaration t d.proto s events result s') (member : event ∈ events) :
    event.request = .declare d.proto.name d.proto.arity := by
  cases declaration with
  | declared unnamed asked => rw [List.mem_singleton.1 member, asked.request_eq]
  | _ => cases member

theorem Request.Emits.ne {request : Request V F} {node : Expr} (emits : request.Emits node) :
    request ≠ .openBody f ∧ request ≠ .verify f := by
  cases emits with
  | @operation c op => cases op <;> exact ⟨nofun, nofun⟩
  | _ => exact ⟨nofun, nofun⟩

/-- A call by which the body of `f` is generated; a verification accepts just where there is a
    result. -/
inductive BodyEvent (f : F) (result : Except Diagnostic Unit) : Event V F → Prop where
  | openBody (answer : Answer V F) : BodyEvent f result ⟨.openBody f, answer⟩
  | emission {event : Event V F} {node : Expr} (emits : event.request.Emits node) :
    BodyEvent f result event
  | ret (v : V) (answer : Answer V F) : BodyEvent f result ⟨.ret v, answer⟩
  | verify {valid : Bool} (decides : valid = true ↔ result = .ok ()) :
    BodyEvent f result ⟨.verify f, .verdict valid⟩

theorem BodyCalls.mem {result : Except Diagnostic Unit} {event : Event V F}
    (body : BodyCalls t d f s events result s') (member : event ∈ events) :
    BodyEvent f result event := by
  cases body with
  | unopened opened =>
    rw [List.mem_singleton.1 member]
    exact .openBody _
  | stopped opened emission =>
    rcases List.mem_cons.1 member with rfl | emitted
    · exact .openBody _
    · obtain ⟨node, emits⟩ := emission.follows.serves_of_mem emitted
      exact .emission emits
  | unreturned opened emission returned =>
    rcases List.mem_cons.1 member with rfl | later
    · exact .openBody _
    rcases List.mem_append.1 later with emitted | last
    · obtain ⟨node, emits⟩ := emission.follows.serves_of_mem emitted
      exact .emission emits
    · rw [List.mem_singleton.1 last]
      exact .ret _ _
  | @verified s₁ s₂ s₃ s₄ es v valid opened emission returned verified =>
    rcases List.mem_cons.1 member with rfl | later
    · exact .openBody _
    rcases List.mem_append.1 later with emitted | last
    · obtain ⟨node, emits⟩ := emission.follows.serves_of_mem emitted
      exact .emission emits
    rcases List.mem_cons.1 last with rfl | final
    · exact .ret _ _
    · rw [List.mem_singleton.1 final]
      cases valid <;> exact .verify (by simp)

theorem BodyCalls.begins {result : Except Diagnostic Unit}
    (body : BodyCalls t d f s events result s') : ∃ answer, ⟨.openBody f, answer⟩ ∈ events := by
  cases body with
  | _ => exact ⟨_, List.mem_cons_self⟩

theorem BodyCalls.last (body : BodyCalls t d f s events (.ok ()) s') :
    events.getLast? = some ⟨.verify f, .verdict true⟩ := by
  generalize eq : (Except.ok () : Except Diagnostic Unit) = result at body
  cases body with
  | @verified s₁ s₂ s₃ s₄ es v valid opened emission returned verified =>
    cases valid with
    | true =>
      rw [List.getLast?_append]
      rfl
    | false => cases eq
  | _ => cases eq

namespace Course

variable {cleanup : List (Event V F)} {result : Except Diagnostic F}

theorem declares (course : Course t d s calls cleanup result)
    (unnamed : t.lookup s d.proto.name = none) :
    ∃ answer, calls.head? = some ⟨.declare d.proto.name d.proto.arity, answer⟩ := by
  have declared : ∀ {es : List (Event V F)} {r : Except Diagnostic F} {s₁ : σ},
      Declaration t d.proto s es r s₁ → ∀ more,
        ∃ answer, (es ++ more).head? = some ⟨.declare d.proto.name d.proto.arity, answer⟩ := by
    intro es r s₁ declaration more
    cases declaration with
    | found named agrees =>
      rw [unnamed] at named
      cases named
    | mismatch named differs =>
      rw [unnamed] at named
      cases named
    | @declared _ event _ _ asked => exact ⟨event.answer, by rw [← asked.request_eq]; rfl⟩
  cases course with
  | undeclared declaration | redefinition declaration =>
    have here := declared declaration []
    rwa [List.append_nil] at here
  | failed declaration | generated declaration => exact declared declaration _

/-- A verification accepts only where there is a result. -/
theorem ok_of_verified (course : Course t d s calls cleanup result) {g : F}
    (verified : ⟨.verify g, .verdict true⟩ ∈ calls) : ∃ f, result = .ok f := by
  have undeclared : ∀ {es : List (Event V F)} {r : Except Diagnostic F} {s₁ : σ},
      Declaration t d.proto s es r s₁ → ⟨.verify g, .verdict true⟩ ∉ es := by
    intro es r s₁ declaration member
    cases declaration.mem member
  cases course with
  | undeclared declaration | redefinition declaration =>
    exact absurd verified (undeclared declaration)
  | failed declaration bodiless body =>
    rcases List.mem_append.1 verified with early | late
    · exact absurd early (undeclared declaration)
    · cases body.mem late with
      | emission emits => exact absurd rfl emits.ne.2
      | verify decides => cases decides.1 rfl
  | generated => exact ⟨_, rfl⟩

theorem succeeds (course : Course t d s calls cleanup result) :
    (∃ f, result = .ok f) ↔ (∀ event ∈ calls, event.answer.granted = true) ∧
      ∃ f, calls.getLast? = some ⟨.verify f, .verdict true⟩ := by
  constructor
  · intro ok
    refine ⟨course.follows.granted ok, ?_⟩
    cases course with
    | @generated _ _ _ _ f declaration bodiless body =>
      refine ⟨f, ?_⟩
      rw [List.getLast?_append, body.last]
      rfl
    | _ =>
      obtain ⟨f, absurd⟩ := ok
      cases absurd
  · rintro ⟨-, f, last⟩
    exact course.ok_of_verified (List.mem_of_getLast? last)

theorem takesBack (course : Course t d s calls cleanup result) {f : F} {answer : Answer V F}
    (begun : ⟨.openBody f, answer⟩ ∈ calls) (failed : ∃ e, result = .error e) :
    cleanup = [⟨takingBack (t.lookup s d.proto.name).isSome f, .done⟩] := by
  obtain ⟨e, rfl⟩ := failed
  cases course with
  | undeclared declaration | redefinition declaration => cases declaration.mem begun
  | failed declaration bodiless body =>
    rcases List.mem_append.1 begun with early | late
    · cases declaration.mem early
    · cases body.mem late with
      | openBody => rfl
      | emission emits => exact absurd rfl emits.ne.1

theorem keeps (course : Course t d s calls cleanup result)
    (kept : (∀ f answer, ⟨.openBody f, answer⟩ ∉ calls) ∨ ∃ f, result = .ok f) :
    cleanup = [] := by
  cases course with
  | failed declaration bodiless body =>
    rcases kept with unopened | ⟨f, absurd⟩
    · obtain ⟨answer, begun⟩ := body.begins
      exact absurd (List.mem_append_right _ begun) (unopened _ answer)
    · cases absurd
  | _ => rfl

end Course

end

/-- With any target, whichever of its calls fail and whatever it answers, generating a function
    keeps to the protocol, and the record of the calls is that of the very run that would be
    made without one. -/
theorem generation_follows_protocol (t : Target σ V F) (d : Definition) (s : σ)
    (scope : Scope V) (before : List (Event V F)) :
    ∃ calls cleanup result s' scope',
      (Gen.definition t.traced d).outcome ⟨⟨s, before⟩, scope⟩ =
        (result, ⟨⟨s', before ++ (calls ++ cleanup)⟩, scope'⟩) ∧
      (Gen.definition t d).outcome ⟨s, scope⟩ = (result, ⟨s', scope'⟩) ∧
      Protocol t d s calls cleanup result := by
  obtain ⟨calls, cleanup, result, s', scope', course, recorded, plain⟩ :=
    Gen.definition_course t d s scope before
  refine ⟨calls, cleanup, result, s', scope', recorded, plain, ?_⟩
  exact {
    course
    follows := course.follows
    declares := course.declares
    succeeds := course.succeeds
    takesBack := fun _ _ => course.takesBack
    keeps := course.keeps }

end Reckon
