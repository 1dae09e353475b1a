/-
  What generation answers.

  Into an assembly generation fails for no reason but those that can be read off the
  construct and the signatures of the live functions.  While a body is written, every
  emission goes through, so the answer is the first of the violations, if there are any
  (`judged_expression`).  What was written for a body without violations passes the check.
  So a definition is refused with the first of its complaints, and succeeds if there is none
  (`definition_judged`).  The main statement is `definition_verdict`.
-/
import Reckon.Proofs.Generate.Checking
import Reckon.Proofs.Generate.Reach
import Reckon.Proofs.Generate.Violation

namespace Reckon

/-! ### Signatures of live functions -/

namespace Assembly

variable {a b : Assembly} {h : Handle} {r : Routine} {p : Prototype}

def taken (a : Assembly) : Signatures := fun name =>
  if name = "" then none
  else (a.live.find? fun entry => entry.2.name == name).map fun entry => entry.2.params.length

/-- The functions that a body of `p` may call: the live ones, and its own. -/
def signatures (a : Assembly) (p : Prototype) : Signatures := fun name =>
  if name ≠ "" ∧ name = p.name then some p.arity else a.taken name

theorem map_arity_lookup (unique : a.UniqueNames) (name : String) :
    (a.lookup name).map a.arity = a.taken name := by
  unfold taken
  by_cases empty : name = ""
  · have unfound : a.lookup name = none := lookup_eq_none_iff.2 (.inl empty)
    rw [if_pos empty, unfound, Option.map_none]
  rw [if_neg empty]
  cases found : a.live.find? fun entry => entry.2.name == name with
  | none =>
    have unfound : a.lookup name = none := by
      refine lookup_eq_none_iff.2 (.inr fun h r alive same => ?_)
      have other := List.find?_eq_none.1 found (h, r) (mem_live.2 alive)
      exact other (beq_iff_eq.2 same)
    rw [unfound, Option.map_none, Option.map_none]
  | some entry =>
    obtain ⟨h, r⟩ := entry
    have alive := mem_live.1 (List.mem_of_find?_eq_some found)
    have named : r.name = name := by
      have same := List.find?_some found
      exact beq_iff_eq.1 same
    subst named
    rw [unique.lookup alive empty, Option.map_some, Option.map_some, arity_eq alive]

/-- Once a prototype is declared, lookups find what its body may call. -/
theorem Declares.signatures (declares : a.Declares p h b) (unique : a.UniqueNames)
    (name : String) : (b.lookup name).map b.arity = a.signatures p name := by
  rw [map_arity_lookup (declares.unique unique)]
  unfold Assembly.signatures
  cases declares with
  | found named count =>
    split
    · rename_i own
      rw [← map_arity_lookup unique, own.2, named, Option.map_some, count]
    · rfl
  | new unnamed =>
    have others : ∀ entry ∈ a.live, p.name ≠ "" → entry.2.name ≠ p.name := by
      rintro ⟨k, s⟩ member named
      exact (lookup_eq_none_iff.1 unnamed).resolve_left named k s (mem_live.1 member)
    unfold taken
    rw [live_declared, List.find?_append]
    by_cases empty : name = ""
    · rw [if_pos empty, if_neg fun own => own.1 empty, if_pos empty]
    rw [if_neg empty, if_neg empty]
    by_cases own : name = p.name
    · subst own
      have unfound : a.live.find? (fun entry => entry.2.name == p.name) = none := by
        refine List.find?_eq_none.2 fun entry member same => ?_
        exact others entry member empty (beq_iff_eq.1 same)
      rw [unfound, if_pos ⟨empty, rfl⟩, Option.none_or]
      simp [newRoutine, Prototype.arity]
    · rw [if_neg fun both => own both.2]
      have other : (newRoutine a p.name p.params).name ≠ name := Ne.symm own
      simp [other]

end Assembly

/-! ### Verdicts -/

/-- The result is an error if there are complaints, and then the first of them. -/
def Judged {α : Type} : List Diagnostic → Except Diagnostic α → Prop
  | [], result => ∃ x, result = .ok x
  | d :: _, result => result = .error d

theorem Judged.ok_iff {α : Type} {complaints : List Diagnostic} {result : Except Diagnostic α}
    (judged : Judged complaints result) : (∃ x, result = .ok x) ↔ complaints = [] := by
  cases complaints with
  | nil => exact iff_of_true judged rfl
  | cons d others =>
    refine iff_of_false ?_ (List.cons_ne_nil _ _)
    rintro ⟨x, rfl⟩
    cases judged

theorem Judged.error_iff {α : Type} {complaints : List Diagnostic}
    {result : Except Diagnostic α} (judged : Judged complaints result) (d : Diagnostic) :
    result = .error d ↔ complaints.head? = some d := by
  cases complaints with
  | nil =>
    obtain ⟨x, rfl⟩ := judged
    exact iff_of_false nofun nofun
  | cons e others =>
    cases judged
    rw [List.head?_cons, Except.error.injEq, Option.some.injEq]

theorem Judged.error {α β : Type} {complaints : List Diagnostic} {d : Diagnostic}
    (judged : Judged complaints (.error d : Except Diagnostic α)) :
    Judged complaints (.error d : Except Diagnostic β) := by
  cases complaints with
  | nil =>
    obtain ⟨x, absurd⟩ := judged
    cases absurd
  | cons e others =>
    cases judged
    rfl

namespace Gen

open Assembly

/-! ### Expressions -/

section Writing

variable {α β : Type} {a : Assembly} {h : Handle} {r : Routine} {scope : Scope Value}
variable {complaints others : List Diagnostic} {takes : Signatures} {params : List String}

/-- While the body of `h` is written, generating by `p` adds to it, and its result is the
    first of the complaints if there are any. -/
def JudgedBy (a : Assembly) (h : Handle) (r : Routine) (scope : Scope Value)
    (complaints : List Diagnostic) (p : Gen Assembly Value α) : Prop :=
  ∀ code first, ∃ more next,
    (p.outcome ⟨a.fill h r code first, scope⟩).2 = ⟨a.fill h r (code ++ more) next, scope⟩ ∧
      Judged complaints (p.outcome ⟨a.fill h r code first, scope⟩).1

theorem JudgedBy.bind {p : Gen Assembly Value α} {f : α → Gen Assembly Value β}
    (hp : JudgedBy a h r scope complaints p) (hf : ∀ x, JudgedBy a h r scope others (f x)) :
    JudgedBy a h r scope (complaints ++ others) (p >>= f) := by
  intro code first
  obtain ⟨more, next, after, judged⟩ := hp code first
  rw [outcome_bind]
  rcases done : p.outcome ⟨a.fill h r code first, scope⟩ with ⟨e | x, g⟩ <;>
    rw [done] at after judged <;> simp only at after judged ⊢
  · cases complaints with
    | nil =>
      obtain ⟨x, absurd⟩ := judged
      cases absurd
    | cons d later =>
      cases judged
      exact ⟨more, next, after, rfl⟩
  · cases complaints with
    | nil =>
      obtain ⟨more', next', after', judged'⟩ := hf x (code ++ more) next
      rw [after]
      exact ⟨more ++ more', next', by rw [after', List.append_assoc], judged'⟩
    | cons d later => cases judged

theorem judgedBy_pure (x : α) : JudgedBy a h r scope [] (pure x : Gen Assembly Value α) := by
  intro code first
  exact ⟨[], first, by rw [outcome_pure, List.append_nil], x, rfl⟩

theorem judgedBy_throw (d : Diagnostic) (others : List Diagnostic) :
    JudgedBy a h r scope (d :: others) (throw d : Gen Assembly Value α) := by
  intro code first
  exact ⟨[], first, by rw [outcome_throw, List.append_nil], rfl⟩

/-- A call that goes through whenever the body is open draws no complaint. -/
theorem judgedBy_ask {p : Position} {call : Emit Assembly α}
    (run : ∀ code first, ∃ x more next,
      call.run (a.fill h r code first) = (.ok x, a.fill h r (code ++ more) next)) :
    JudgedBy a h r scope [] (ask p call : Gen Assembly Value α) := by
  intro code first
  obtain ⟨x, more, next, ran⟩ := run code first
  refine ⟨more, next, ?_, x, ?_⟩
  · rw [outcome_ask, ran]
  · rw [outcome_ask, ran, mapError_ok]

theorem judgedBy_operation (hr : a.routine? h = some r) (p : Position) (x y : Value)
    (operation : Operation) :
    JudgedBy a h r scope [] (ask p (emitOperation target x y operation)) := by
  apply judgedBy_ask
  intro code first
  cases operation with
  | arith op => exact ⟨_, _, _, run_emit hr .double (.arith op · x y)⟩
  | lessThan => exact ⟨_, _, _, run_emitLessThan hr x y⟩

theorem isSome_ofChar?_iff (c : Char) : (Operation.ofChar? c).isSome ↔ c ∈ operators := by
  unfold Operation.ofChar?
  split
  · simp [operators]
  · simp [operators]
  · simp [operators]
  · simp [operators]
  · simp_all [operators]

mutual
/-- While a body is written, an expression is generated unless it violates something. -/
theorem judged_expression (hr : a.routine? h = some r)
    (known : ∀ name, (a.lookup name).map a.arity = takes name)
    (bound : ∀ name, (scope.value? name).isSome ↔ name ∈ params) :
    ∀ e : Expr, JudgedBy a h r scope (e.violations takes params) (expression target e)
  | .num x s => by
    rw [expression, Expr.violations]
    apply judgedBy_ask
    intro code first
    exact ⟨_, _, _, run_emit hr .double (.const · x)⟩
  | .var name s => by
    intro code first
    rw [expression, Expr.violations, outcome_bind, outcome_get]
    simp only
    cases value : scope.value? name with
    | none =>
      have unbound : name ∉ params := by simp [← bound, value]
      rw [if_neg unbound]
      exact judgedBy_throw _ _ code first
    | some v =>
      have isBound : name ∈ params := by simp [← bound, value]
      rw [if_pos isBound]
      exact judgedBy_pure v code first
  | .bin op left right s => by
    rw [expression, Expr.violations]
    refine (judged_expression hr known bound left).bind fun x => ?_
    refine (judged_expression hr known bound right).bind fun y => ?_
    unfold Expr.operatorViolations
    cases operation : Operation.ofChar? op with
    | none =>
      have invalid : op ∉ operators := by simp [← isSome_ofChar?_iff, operation]
      rw [if_neg invalid]
      exact judgedBy_throw _ _
    | some o =>
      have valid : op ∈ operators := by simp [← isSome_ofChar?_iff, operation]
      rw [if_pos valid]
      exact judgedBy_operation hr s.start x y o
  | .call callee args s => by
    intro code first
    rw [expression, Expr.violations, outcome_bind, outcome_targetState]
    simp only
    have looked : target.lookup (a.fill h r code first) callee = a.lookup callee :=
      lookup_fill hr callee
    have counted : target.arity (a.fill h r code first) = a.arity := funext (arity_fill hr)
    unfold Expr.calleeViolations
    rw [looked, counted, ← known callee]
    cases found : a.lookup callee with
    | none => exact judgedBy_throw _ _ code first
    | some k =>
      simp only [Option.map_some]
      by_cases count : a.arity k = args.length
      · rw [if_pos count, if_pos count, List.nil_append,
          ← List.append_nil (Expr.violationsList takes params args)]
        refine ((judged_expressions hr known bound args).bind fun values => ?_) code first
        apply judgedBy_ask
        intro code first
        have ran := @run_emitCall a h r code first hr k values
        rw [if_pos (isSome_routine?_fill hr found)] at ran
        exact ⟨_, _, _, ran⟩
      · rw [if_neg count, if_neg count]
        exact judgedBy_throw _ _ code first

theorem judged_expressions (hr : a.routine? h = some r)
    (known : ∀ name, (a.lookup name).map a.arity = takes name)
    (bound : ∀ name, (scope.value? name).isSome ↔ name ∈ params) :
    ∀ es : List Expr,
      JudgedBy a h r scope (Expr.violationsList takes params es) (expressions target es)
  | [] => by
    rw [expressions, Expr.violationsList]
    exact judgedBy_pure []
  | e :: es => by
    rw [expressions, Expr.violationsList]
    refine (judged_expression hr known bound e).bind fun v => ?_
    rw [← List.append_nil (Expr.violationsList takes params es)]
    exact (judged_expressions hr known bound es).bind fun vs => judgedBy_pure (v :: vs)
end

end Writing

end Gen

/-! ### Definitions -/

namespace Gen

open Assembly

variable {b : Assembly} {h : Handle} {r : Routine} {takes : Signatures} {d : Definition}

theorem isSome_value?_ofParams {params : List String} {values : List Value}
    (count : params.length = values.length) (name : String) :
    ((Scope.ofParams params values).value? name).isSome ↔ name ∈ params := by
  rw [Scope.value?_ofParams, Option.isSome_iff_ne_none]
  exact (not_congr (lookup_zip_reverse_eq_none (Nat.le_of_eq count))).trans Decidable.not_not

/-- A declared routine gets its body unless that violates something. -/
theorem body_judged (hr : b.routine? h = some r) (bodiless : r.body = none)
    (count : d.proto.params.length = r.values.length) (doubles : ∀ v ∈ r.values, v.type = .double)
    (known : ∀ name, (b.lookup name).map b.arity = takes name) (scope : Scope Value) :
    Judged (d.body.violations takes d.proto.params)
      ((body target d h).outcome ⟨b, scope⟩).1 := by
  have bound := isSome_value?_ofParams count
  obtain ⟨-, -, -, judged⟩ := judged_expression hr known bound d.body [] b.nextValue
  obtain ⟨is, next, -, written, -, code⟩ :=
    writes_expression unreliable_target hr b.nextValue d.body
      ⟨b.fill h r [] b.nextValue, .ofParams d.proto.params r.values⟩ [] rfl rfl
  have opened : (target.openBody h).run b = (.ok (), b.fill h r [] b.nextValue) :=
    run_openBody hr bodiless
  have params : target.params (b.fill h r [] b.nextValue) h = r.values := params_fill hr
  unfold body
  rw [outcome_bind, outcome_ask, opened]
  simp only [mapError_ok, outcome_bind, outcome_targetState, outcome_setScope, params]
  rcases generated : (expression target d.body).outcome
      ⟨b.fill h r [] b.nextValue, .ofParams d.proto.params r.values⟩ with ⟨e | v, g⟩ <;>
    rw [generated] at judged written code <;> simp only
  · exact judged.error
  rw [judged.ok_iff.1 ⟨v, rfl⟩]
  have here : g.target = b.fill h r is next := written
  have returned : (target.ret v).run g.target = (.ok (), b.fill h r (is ++ [.ret v]) next) := by
    rw [here]
    exact run_push hr (.ret v)
  have verified : (target.verify h).run (b.fill h r (is ++ [.ret v]) next) =
      (true, b.fill h r (is ++ [.ret v]) next) := by
    rw [← check_filled hr bodiless doubles (code v rfl)]
    rfl
  rw [outcome_ask, returned]
  simp only [mapError_ok, outcome_tell, verified]
  exact ⟨(), rfl⟩

def takeBack (a : Assembly) (d : Definition) (h : Handle) : StateM Assembly Unit :=
  if (a.lookup d.proto.name).isSome then Assembly.discardBody h else Assembly.abandon h

variable {a : Assembly} {p : Prototype}

theorem outcome_prototype (declares : a.Declares p h b) (scope : Scope Value) :
    (prototype target p).outcome ⟨a, scope⟩ = (.ok h, ⟨b, scope⟩) := by
  unfold prototype
  rw [outcome_bind, outcome_targetState]
  cases declares with
  | found named count =>
    change target.lookup _ p.name = some h at named
    change target.arity _ h = p.arity at count
    simp only [named, count, if_true, outcome_pure]
  | new unnamed =>
    have unfound : target.lookup a p.name = none := unnamed
    have ran : (target.declare p.name p.params).run a =
        (.ok a.slots.size, a.declared p.name p.params) := by
      refine (run_declare a p.name p.params).trans ?_
      rw [unnamed]
      rfl
    simp only [unfound, outcome_ask, ran, mapError_ok]

theorem outcome_prototype_mismatch (named : a.lookup p.name = some h) (count : a.arity h ≠ p.arity)
    (scope : Scope Value) :
    (prototype target p).outcome ⟨a, scope⟩ =
      (.error ⟨.prototypeMismatch p.name (a.arity h) p.arity, p.span.start⟩, ⟨a, scope⟩) := by
  have found : target.lookup a p.name = some h := named
  have counted : target.arity a h ≠ p.arity := count
  unfold prototype
  rw [outcome_bind, outcome_targetState]
  simp only [found, if_neg counted, outcome_throw]
  rfl

/-- A definition of a function without a body is what becomes of its body. -/
theorem outcome_definition (declares : a.Declares d.proto h b) (hr : b.routine? h = some r)
    (bodiless : r.body = none) (scope : Scope Value) :
    (definition target d).outcome ⟨a, scope⟩ =
      match (body target d h).outcome ⟨b, scope⟩ with
      | (.ok _, g) => (.ok h, ⟨g.target, []⟩)
      | (.error e, g) => (.error e, ⟨((takeBack a d h).run g.target).2, []⟩) := by
  have hasNot : target.hasBody b h = false := by
    change b.hasBody h = false
    simp [hasBody, hr, bodiless]
  unfold definition
  rw [outcome_bind, outcome_targetState]
  simp only [outcome_bind, outcome_prototype declares, outcome_targetState, hasNot,
    Bool.false_eq_true, if_false, outcome_attempt, outcome_setScope]
  rcases (body target d h).outcome ⟨b, scope⟩ with ⟨e | _, g⟩
  · rfl
  · rfl

/-- What was bound before plays no part in a body. -/
theorem outcome_body_scope (hr : b.routine? h = some r) (bodiless : r.body = none)
    (scope scope' : Scope Value) :
    (body target d h).outcome ⟨b, scope⟩ = (body target d h).outcome ⟨b, scope'⟩ := by
  have opened : (target.openBody h).run b = (.ok (), b.fill h r [] b.nextValue) :=
    run_openBody hr bodiless
  unfold body
  rw [outcome_bind, outcome_bind, outcome_ask, outcome_ask, opened]
  simp only [mapError_ok, outcome_bind, outcome_targetState, outcome_setScope]

/-- What stands against a definition: a function of its name that takes another number of
    parameters, or one that has a body, or else what its body violates. -/
def complaints (a : Assembly) (d : Definition) : List Diagnostic :=
  let violations := d.body.violations (a.signatures d.proto) d.proto.params
  match a.lookup d.proto.name with
  | none => violations
  | some h =>
    if a.arity h = d.proto.arity then
      if a.hasBody h then [⟨.redefinition d.proto.name, d.proto.span.start⟩] else violations
    else [⟨.prototypeMismatch d.proto.name (a.arity h) d.proto.arity, d.proto.span.start⟩]

theorem ordered_of_declares (declares : a.Declares p h b) (ordered : a.Ordered) : b.Ordered := by
  cases declares with
  | found named count => exact ordered
  | new unnamed => exact (Step.declared p.name p.params unnamed).ordered ordered

/-- A definition whose function is declared, new or without a body, is judged by its body. -/
theorem definition_judged_of_declares (ordered : a.Ordered) (unique : a.UniqueNames)
    (declares : a.Declares d.proto h b) (hr : b.routine? h = some r) (bodiless : r.body = none)
    (scope : Scope Value) :
    Judged (d.body.violations (a.signatures d.proto) d.proto.params)
      ((definition target d).outcome ⟨a, scope⟩).1 := by
  have here := ordered_of_declares declares ordered h r hr
  have count : d.proto.params.length = r.values.length := by
    obtain ⟨s, alive, -, arity, -⟩ := declares.here
    rw [hr] at alive
    cases alive
    rw [here.count, arity]
    rfl
  have judged := body_judged hr bodiless count here.doubles (declares.signatures unique) scope
  rw [outcome_definition declares hr bodiless]
  generalize (body target d h).outcome ⟨b, scope⟩ = came at judged ⊢
  obtain ⟨e | _, g⟩ := came
  · exact judged.error
  · rw [judged.ok_iff.1 ⟨_, rfl⟩]
    exact ⟨h, rfl⟩

/-- A definition is refused for the function of its name, and nothing has been done by then. -/
theorem outcome_definition_refused {a : Assembly} {d : Definition} {h : Handle} {r : Routine}
    (named : a.lookup d.proto.name = some h) (alive : a.routine? h = some r)
    (stands : r.body.isSome ∨ r.params.length ≠ d.proto.arity) (scope : Scope Value) :
    (definition target d).outcome ⟨a, scope⟩ =
      (.error ⟨if r.params.length = d.proto.arity then .redefinition d.proto.name
        else .prototypeMismatch d.proto.name r.params.length d.proto.arity,
        d.proto.span.start⟩, ⟨a, scope⟩) := by
  have arity := arity_eq alive
  unfold definition
  rw [outcome_bind, outcome_targetState]
  by_cases count : r.params.length = d.proto.arity
  · have declares : a.Declares d.proto h a := .found named (arity.trans count)
    have present : target.hasBody a h = true := by
      change a.hasBody h = true
      rw [hasBody, alive]
      exact stands.resolve_right (not_not_intro count)
    simp only [outcome_bind, outcome_prototype declares, outcome_targetState, present, if_true,
      outcome_throw, count]
  · have mismatch : a.arity h ≠ d.proto.arity := arity ▸ count
    simp only [outcome_bind, outcome_prototype_mismatch named mismatch, count, if_false, arity]

/-- A definition is refused with the first of the complaints, or succeeds if there is none. -/
theorem definition_judged (ordered : a.Ordered) (unique : a.UniqueNames) (d : Definition)
    (scope : Scope Value) :
    Judged (complaints a d) ((definition target d).outcome ⟨a, scope⟩).1 := by
  unfold complaints
  cases named : a.lookup d.proto.name with
  | none =>
    have declares : a.Declares d.proto a.slots.size (a.declared d.proto.name d.proto.params) :=
      .new named
    have hr : (a.declared d.proto.name d.proto.params).routine? a.slots.size =
        some (a.newRoutine d.proto.name d.proto.params) := by
      rw [routine?_declared, if_pos rfl]
    exact definition_judged_of_declares ordered unique declares hr rfl scope
  | some h =>
    obtain ⟨r, hr, -⟩ := routine?_of_lookup named
    have arity := arity_eq hr
    have has : a.hasBody h = r.body.isSome := by rw [hasBody, hr]
    simp only [arity, has]
    by_cases count : r.params.length = d.proto.arity
    · cases bodied : r.body with
      | none =>
        have declares : a.Declares d.proto h a := .found named (arity.trans count)
        simpa [count] using definition_judged_of_declares ordered unique declares hr bodied scope
      | some code =>
        have present : r.body.isSome = true := by simp [bodied]
        rw [outcome_definition_refused named hr (.inl present)]
        simp [count, Judged]
    · rw [outcome_definition_refused named hr (.inr count)]
      simp [count, Judged]

end Gen

/-! ### Definitions that can be begun -/

namespace Assembly

/-- A function of this prototype can be defined: it has no name, or a new one, or the name of
    a live function without a body that takes as many parameters. -/
inductive Admits (a : Assembly) (p : Prototype) : Prop where
  | nameless (anonymous : p.name = "")
  | new (unused : ∀ entry ∈ a.live, entry.2.name ≠ p.name)
  | declared {h : Handle} {r : Routine} (alive : (h, r) ∈ a.live) (named : r.name = p.name)
    (bodiless : r.body = none) (count : r.params.length = p.arity)

theorem Admits.declares {a : Assembly} {p : Prototype} (admits : a.Admits p)
    (unique : a.UniqueNames) :
    ∃ h b r, a.Declares p h b ∧ b.routine? h = some r ∧ r.body = none := by
  by_cases unnamed : a.lookup p.name = none
  · refine ⟨_, _, a.newRoutine p.name p.params, .new unnamed, ?_, rfl⟩
    rw [routine?_declared, if_pos rfl]
  · -- A function of the name is alive.
    have known := mt lookup_eq_none_iff.2 unnamed
    cases admits with
    | nameless anonymous => exact absurd (.inl anonymous) known
    | new unused =>
      refine absurd (.inr fun h r alive => ?_) known
      exact unused (h, r) (mem_live.2 alive)
    | @declared h r alive named bodiless count =>
      have here := mem_live.1 alive
      have notEmpty : r.name ≠ "" := fun empty => known (.inl (named ▸ empty))
      have found : a.lookup p.name = some h := named ▸ unique.lookup here notEmpty
      exact ⟨h, a, r, .found found ((arity_eq here).trans count), here, bodiless⟩

end Assembly

namespace Gen

open Assembly

/-- In whatever state, a definition that can be begun succeeds exactly if its body is
    well-bound, and fails with the first violation of its body otherwise, never because the
    function failed its check or the target refused a call.  The names that were bound before
    play no part. -/
theorem definition_verdict {g : Generator Assembly Value} (reached : g.Reached) (d : Definition)
    (admits : g.target.Admits d.proto) :
    let result := ((definition target d).outcome g).1
    let takes := g.target.signatures d.proto
    ((∃ h, result = .ok h) ↔ d.body.WellBound takes d.proto.params) ∧
      (∀ e, result = .error e ↔ (d.body.violations takes d.proto.params).head? = some e) ∧
      (∀ e, result = .error e →
        (∀ name, e.cause ≠ .invalidFunction name) ∧ ∀ text, e.cause ≠ .target text) ∧
      ∀ scope, (definition target d).outcome { g with scope } = (definition target d).outcome g := by
  obtain ⟨a, before⟩ := g
  intro result takes
  have ordered := reached.built.ordered
  have unique := reached.built.kept.1
  obtain ⟨h, b, r, declares, hr, bodiless⟩ := admits.declares unique
  have judged := definition_judged_of_declares ordered unique declares hr bodiless before
  refine ⟨judged.ok_iff.trans (Expr.violations_eq_nil_iff d.body), judged.error_iff, ?_, ?_⟩
  · intro e failed
    have first := List.mem_of_head? ((judged.error_iff e).1 failed)
    have binding := Expr.binding_of_violations d.body e first
    constructor
    · intro name cause
      rw [cause] at binding
      cases binding
    · intro text cause
      rw [cause] at binding
      cases binding
  · intro scope
    rw [outcome_definition declares hr bodiless, outcome_definition declares hr bodiless,
      outcome_body_scope hr bodiless scope before]

/-- A return was refused, `f` was declared, and a value that nothing defines is bound to `z`. -/
def forged : Generator Assembly Value :=
  ⟨((target.declare "f" ["x"]).run ((target.ret ⟨7, .bool⟩).run (empty "forged" 8)).2).2,
    [("z", ⟨99, .bool⟩)]⟩

/-- A recursive definition completes `f`.  Of `g` it is reported that `z` is not bound, which
    comes before the call that lacks an argument and the operator that has no code. -/
theorem definition_verdict_forged :
    (∃ h, ((definition target ⟨⟨"f", ["y"], .nowhere⟩, .bin '+' (.call "f" [.var "y" .nowhere]
      .nowhere) (.num 1 .nowhere) .nowhere⟩).outcome forged).1 = .ok h) ∧
    ((definition target ⟨⟨"g", ["y"], .nowhere⟩, .bin '^' (.call "f" [.var "z" (.within "w" 2 3)]
      .nowhere) (.call "g" [] .nowhere) .nowhere⟩).outcome forged).1 =
        .error ⟨.unknownVariable "z", ⟨2, "w"⟩⟩ := by
  have reached : forged.Reached :=
    .operate (.operate (.start "forged" 8 []) (.ret ⟨7, .bool⟩) []) (.declare "f" ["x"]) _
  constructor
  · have first : (forged.target.routine? 0).map (fun r => (r.name, r.body.isNone, r.params.length)) =
        some ("f", true, 1) := by decide +kernel
    obtain ⟨r, alive, eq⟩ := Option.map_eq_some_iff.1 first
    obtain ⟨name, bodiless, count⟩ := by simpa using eq
    have admits : forged.target.Admits ⟨"f", ["y"], .nowhere⟩ :=
      .declared (mem_live.2 alive) name bodiless count
    obtain ⟨succeeds, -⟩ := definition_verdict reached
      ⟨⟨"f", ["y"], .nowhere⟩, .bin '+' (.call "f" [.var "y" .nowhere] .nowhere)
        (.num 1 .nowhere) .nowhere⟩ admits
    rw [succeeds, ← Expr.violations_eq_nil_iff]
    decide +kernel
  · have admits : forged.target.Admits ⟨"g", ["y"], .nowhere⟩ := .new (by decide +kernel)
    obtain ⟨-, fails, -⟩ := definition_verdict reached
      ⟨⟨"g", ["y"], .nowhere⟩, .bin '^' (.call "f" [.var "z" (.within "w" 2 3)] .nowhere)
        (.call "g" [] .nowhere) .nowhere⟩ admits
    rw [fails]
    decide +kernel

end Gen

end Reckon
