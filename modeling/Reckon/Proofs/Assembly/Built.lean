/-
  Assemblies that can be built.

  `Operates` is one call to the assembly's target, with whatever values and handles, forged
  ones included, and `Built` is what any sequence of such calls leads to from an empty
  assembly.  An equation for each call says what it does in any assembly; an emission adds to
  the open body or is refused (`emitted`).  `Step` says once and for all what a call can do:
  nothing, or one of five changes, each with the conditions under which it happens
  (`step_of_operates`).

  The invariant shown by it is `Routine.Ordered`: a routine has a value for each parameter,
  its values are numbered in the order in which they are defined, and the type of a value is
  the one that its instruction gives.
-/
import Reckon.Proofs.Assembly.Draft
import Reckon.Assembly.Target

namespace Reckon

/-! ### What a routine defines -/

def Instruction.resultType : Instruction → ValueType
  | .lessThan .. => .bool
  | _ => .double

/-- The values that a routine defines, its parameters first. -/
def Routine.defined (r : Routine) : List Value :=
  r.values ++ (r.body.getD #[]).toList.filterMap Instruction.dest?

/-- The values of a routine are numbered in their order and below `next`, and each has the
    type that is due to it. -/
structure Routine.Ordered (r : Routine) (next : Nat) : Prop where
  count : r.values.length = r.params.length
  ascending : (r.defined.map (·.id)).Pairwise (· < ·)
  below : ∀ v ∈ r.defined, v.id < next
  doubles : ∀ v ∈ r.values, v.type = .double
  typed : ∀ i ∈ (r.body.getD #[]).toList, ∀ v, i.dest? = some v → v.type = i.resultType

namespace Routine

variable {r : Routine} {next next' : Nat}

theorem defined_some (r : Routine) (code : List Instruction) :
    ({ r with body := some code.toArray } : Routine).defined =
      r.values ++ code.filterMap Instruction.dest? := by
  simp [defined]

theorem defined_none (r : Routine) : ({ r with body := none } : Routine).defined = r.values := by
  simp [defined]

theorem Ordered.mono (ordered : r.Ordered next) (le : next ≤ next') : r.Ordered next' :=
  { ordered with below := fun v member => Nat.lt_of_lt_of_le (ordered.below v member) le }

theorem Ordered.discard (ordered : r.Ordered next) :
    ({ r with body := none } : Routine).Ordered next where
  count := ordered.count
  ascending := by
    have ascending := ordered.ascending
    rw [defined, List.map_append, List.pairwise_append] at ascending
    rw [defined_none]
    exact ascending.1
  below := by
    intro v member
    rw [defined_none] at member
    exact ordered.below v (List.mem_append_left _ member)
  doubles := ordered.doubles
  typed := by simp

end Routine

/-! ### Emissions -/

/-- The instructions that one emission adds when the next value has the number `next`, and
    the number of the value after them. -/
inductive Emits (next : Nat) : List Instruction → Nat → Prop where
  | const (x : Float) : Emits next [.const ⟨next, .double⟩ x] (next + 1)
  | arith (op : Arith) (left right : Value) :
    Emits next [.arith op ⟨next, .double⟩ left right] (next + 1)
  | lessThan (left right : Value) :
    Emits next [.lessThan ⟨next, .bool⟩ left right, .widen ⟨next + 1, .double⟩ ⟨next, .bool⟩]
      (next + 2)
  | call (callee : Handle) (args : List Value) :
    Emits next [.call ⟨next, .double⟩ callee args] (next + 1)
  | ret (value : Value) : Emits next [.ret value] next

namespace Emits

variable {next next' : Nat} {is : List Instruction}

theorem le (emits : Emits next is next') : next ≤ next' := by
  cases emits <;> omega

/-- What an emission defines is numbered in order from `next` up to `next'`. -/
theorem defined (emits : Emits next is next') :
    ((is.filterMap Instruction.dest?).map (·.id)).Pairwise (· < ·) ∧
      ∀ v ∈ is.filterMap Instruction.dest?, next ≤ v.id ∧ v.id < next' := by
  cases emits with
  | ret value => exact ⟨.nil, fun v member => nomatch member⟩
  | _ => simp [Instruction.dest?]

theorem typed (emits : Emits next is next') :
    ∀ i ∈ is, ∀ v, i.dest? = some v → v.type = i.resultType := by
  cases emits <;> simp [Instruction.dest?, Instruction.resultType]

end Emits

namespace Routine

theorem Ordered.emit {r : Routine} {next next' : Nat} {body : Array Instruction}
    {is : List Instruction} (ordered : r.Ordered next) (has : r.body = some body)
    (emits : Emits next is next') :
    ({ r with body := some (body.toList ++ is).toArray } : Routine).Ordered next' where
  count := ordered.count
  ascending := by
    obtain ⟨ascending, range⟩ := emits.defined
    rw [defined_some, List.filterMap_append, ← List.append_assoc, List.map_append,
      List.pairwise_append]
    have before : r.values ++ body.toList.filterMap Instruction.dest? = r.defined := by
      simp [defined, has]
    rw [before]
    refine ⟨ordered.ascending, ascending, ?_⟩
    intro m memberM n memberN
    obtain ⟨v, memberV, rfl⟩ := List.mem_map.1 memberM
    obtain ⟨w, memberW, rfl⟩ := List.mem_map.1 memberN
    exact Nat.lt_of_lt_of_le (ordered.below v memberV) (range w memberW).1
  below := by
    intro v member
    rw [defined_some, List.filterMap_append, ← List.append_assoc] at member
    rcases List.mem_append.1 member with old | new
    · have lt := ordered.below v (by simpa [defined, has] using old)
      exact Nat.lt_of_lt_of_le lt emits.le
    · exact (emits.defined.2 v new).2
  doubles := ordered.doubles
  typed := by
    intro i member v defines
    have member' : i ∈ body.toList ++ is := member
    rcases List.mem_append.1 member' with old | new
    · exact ordered.typed i (by simpa [has] using old) v defines
    · exact emits.typed i new v defines

end Routine

namespace Assembly

variable {a b : Assembly} {h : Handle} {r : Routine}

/-! ### Operations -/

inductive Operates (a : Assembly) : Assembly → Prop where
  | literal (x : Float) : Operates a ((target.literal x).run a).2
  | arith (op : Arith) (left right : Value) : Operates a ((target.arith op left right).run a).2
  | lessThan (left right : Value) : Operates a ((target.lessThan left right).run a).2
  | declare (name : String) (params : List String) :
    Operates a ((target.declare name params).run a).2
  | openBody (h : Handle) : Operates a ((target.openBody h).run a).2
  | call (h : Handle) (args : List Value) : Operates a ((target.call h args).run a).2
  | ret (value : Value) : Operates a ((target.ret value).run a).2
  | abandon (h : Handle) : Operates a ((target.abandon h).run a).2
  | discardBody (h : Handle) : Operates a ((target.discardBody h).run a).2
  | verify (h : Handle) : Operates a ((target.verify h).run a).2
  | evaluate (h : Handle) : Operates a ((target.evaluate h).run a).2

inductive Built : Assembly → Prop where
  | empty (moduleName : String) (depthLimit : Nat) : Built (empty moduleName depthLimit)
  | operate {a b : Assembly} (before : Built a) (operates : a.Operates b) : Built b

inductive Step (a : Assembly) : Assembly → Prop where
  | none : Step a a
  | declared (name : String) (params : List String) (unnamed : a.lookup name = .none) :
    Step a (a.declared name params)
  | opened {h : Handle} {r : Routine} (alive : a.routine? h = some r)
    (bodiless : r.body = .none) : Step a (a.fill h r [] a.nextValue)
  | emitted {h : Handle} {r : Routine} {body : Array Instruction} {is : List Instruction}
    {next : Nat} (isOpen : a.openBody? = some (h, r, body)) (emits : Emits a.nextValue is next) :
    Step a (a.fill h r (body.toList ++ is) next)
  | abandoned (h : Handle) : Step a ((a.setSlot h .none).close h)
  | discarded {h : Handle} {r : Routine} (alive : a.routine? h = some r) :
    Step a ((a.setSlot h (some { r with body := .none })).close h)
  | closed {h : Handle} (dead : a.routine? h = .none) : Step a (a.close h)

theorem openBody?_eq_some_iff {body : Array Instruction} :
    a.openBody? = some (h, r, body) ↔
      a.insertion = some h ∧ a.routine? h = some r ∧ r.body = some body := by
  simp only [openBody?, Option.bind_eq_bind, Option.bind_eq_some_iff, Option.pure_def,
    Option.some.injEq, Prod.mk.injEq]
  constructor
  · rintro ⟨_, insertion, _, alive, _, has, rfl, rfl, rfl⟩
    exact ⟨insertion, alive, has⟩
  · rintro ⟨insertion, alive, has⟩
    exact ⟨h, insertion, r, alive, body, has, rfl, rfl, rfl⟩

/-- An assembly with an open body is one in which a routine is being written. -/
theorem fill_self {body : Array Instruction} (isOpen : a.openBody? = some (h, r, body)) :
    a.fill h r body.toList a.nextValue = a := by
  obtain ⟨insertion, alive, has⟩ := openBody?_eq_some_iff.1 isOpen
  have same : ({ r with body := some body } : Routine) = r := by rw [← has]
  simp only [fill, Array.toArray_toList, same, setIfInBounds_routine? alive, ← insertion]

/-! ### What each call does -/

section Calls

variable {α : Type}

/-- What an emission comes to: the instructions `is` in the open body and a result, or nothing
    but a refusal where no body is open. -/
def emitted (a : Assembly) (is : List Instruction) (next : Nat) (result : α) :
    Except TargetError α × Assembly :=
  match a.openBody? with
  | some (h, r, body) => (.ok result, a.fill h r (body.toList ++ is) next)
  | none => (.error .noOpenBody, a)

/-- An operation is an emission if it is one where a routine is being written. -/
theorem run_eq_emitted {op : Emit Assembly α} {is : List Instruction} {next : Nat} {result : α}
    (closed : a.openBody? = none → op.run a = (.error .noOpenBody, a))
    (emits : ∀ h r code, a.routine? h = some r →
      op.run (a.fill h r code a.nextValue) = (.ok result, a.fill h r (code ++ is) next)) :
    op.run a = a.emitted is next result := by
  unfold emitted
  cases isOpen : a.openBody? with
  | none => exact closed isOpen
  | some here =>
    obtain ⟨h, r, body⟩ := here
    have alive := (openBody?_eq_some_iff.1 isOpen).2.1
    have ran := emits h r body.toList alive
    rwa [fill_self isOpen] at ran

theorem run_emit_eq (a : Assembly) (type : ValueType) (make : Value → Instruction) :
    (emit type make).run a =
      a.emitted [make ⟨a.nextValue, type⟩] (a.nextValue + 1) ⟨a.nextValue, type⟩ := by
  refine run_eq_emitted (fun closed => ?_) fun h r code alive => run_emit alive type make
  simp [emit, requireOpen, Emit.run_bind, closed]

theorem run_push_eq (a : Assembly) (i : Instruction) :
    (push i).run a = a.emitted [i] a.nextValue () := by
  refine run_eq_emitted (fun closed => ?_) fun h r code alive => run_push alive i
  simp [push, Emit.run_bind, closed]

/-- A comparison and the conversion of its outcome are added both or not at all. -/
theorem run_emitLessThan_eq (a : Assembly) (left right : Value) :
    (emitLessThan left right).run a =
      a.emitted [.lessThan ⟨a.nextValue, .bool⟩ left right,
        .widen ⟨a.nextValue + 1, .double⟩ ⟨a.nextValue, .bool⟩] (a.nextValue + 2)
        ⟨a.nextValue + 1, .double⟩ := by
  refine run_eq_emitted (fun closed => ?_) fun h r code alive =>
    run_emitLessThan alive left right
  rw [emitLessThan, Emit.run_bind, run_emit_eq, emitted, closed]

theorem run_emitCall_eq (a : Assembly) (callee : Handle) (args : List Value) :
    (emitCall callee args).run a =
      if (a.routine? callee).isSome then
        a.emitted [.call ⟨a.nextValue, .double⟩ callee args] (a.nextValue + 1)
          ⟨a.nextValue, .double⟩
      else (.error .staleHandle, a) := by
  cases found : a.routine? callee with
  | none => simp [emitCall, Emit.run_bind, found]
  | some r => simp [emitCall, Emit.run_bind, found, run_emit_eq]

theorem run_openBody_eq (a : Assembly) (h : Handle) :
    (openBody h).run a =
      match a.routine? h with
      | none => (.error .staleHandle, a)
      | some r =>
        if r.body.isSome then (.error (.bodyPresent r.name), a)
        else (.ok (), a.fill h r [] a.nextValue) := by
  cases alive : a.routine? h with
  | none => simp [openBody, Emit.run_bind, alive]
  | some r =>
    cases has : r.body with
    | none => simp [run_openBody alive has, has]
    | some body => simp [openBody, Emit.run_bind, alive, has]

theorem run_evaluated (a : Assembly) (h : Handle) :
    (evaluated h).run a = (((a.evaluate h).map some).mapError Fault.toTargetError, a) := by
  unfold evaluated
  rw [Emit.run_bind, Emit.run_get]
  cases result : a.evaluate h <;> simp [result] <;> rfl

/-- An emission is a step. -/
theorem step_emitted {is : List Instruction} {next : Nat} (emits : Emits a.nextValue is next)
    (result : α) : a.Step (a.emitted is next result).2 := by
  unfold emitted
  cases isOpen : a.openBody? with
  | none => exact .none
  | some here => exact .emitted isOpen emits

end Calls

theorem step_of_operates (operates : a.Operates b) : a.Step b := by
  cases operates with
  | literal x =>
    change a.Step ((emitLiteral x).run a).2
    rw [emitLiteral, run_emit_eq]
    exact step_emitted (.const x) _
  | arith op left right =>
    change a.Step ((emitArith op left right).run a).2
    rw [emitArith, run_emit_eq]
    exact step_emitted (.arith op left right) _
  | lessThan left right =>
    change a.Step ((emitLessThan left right).run a).2
    rw [run_emitLessThan_eq]
    exact step_emitted (.lessThan left right) _
  | call callee args =>
    change a.Step ((emitCall callee args).run a).2
    rw [run_emitCall_eq]
    split
    · exact step_emitted (.call callee args) _
    · exact .none
  | ret value =>
    change a.Step ((emitRet value).run a).2
    rw [emitRet, run_push_eq]
    exact step_emitted (.ret value) _
  | declare name params =>
    change a.Step ((Assembly.declare name params).run a).2
    rw [run_declare]
    cases named : a.lookup name with
    | none => exact .declared name params named
    | some h => exact .none
  | openBody h =>
    change a.Step ((Assembly.openBody h).run a).2
    rw [run_openBody_eq]
    cases alive : a.routine? h with
    | none => exact .none
    | some r =>
      cases has : r.body with
      | none => simpa [has] using Step.opened alive has
      | some body => simpa [has] using Step.none
  | abandon h => exact .abandoned h
  | discardBody h =>
    change a.Step ((Assembly.discardBody h).run a).2
    cases alive : a.routine? h with
    | some r =>
      rw [run_discardBody alive]
      exact .discarded alive
    | none =>
      rw [run_discardBody_none alive]
      exact .closed alive
  | verify h => exact .none
  | evaluate h =>
    change a.Step ((evaluated h).run a).2
    rw [run_evaluated]
    exact .none

/-! ### Order is kept -/

def Ordered (a : Assembly) : Prop :=
  ∀ h r, a.routine? h = some r → r.Ordered a.nextValue

theorem ordered_empty (moduleName : String) (depthLimit : Nat) :
    (empty moduleName depthLimit).Ordered :=
  fun _ _ hr => nomatch hr

theorem ordered_newRoutine (a : Assembly) (name : String) (params : List String) :
    (a.newRoutine name params).Ordered (a.declared name params).nextValue where
  count := by simp [newRoutine]
  ascending := by
    have ids : ((a.newRoutine name params).defined.map (·.id)) =
        List.range' a.nextValue params.length := by
      simp [Routine.defined, newRoutine, Function.comp_def]
    rw [ids]
    exact List.pairwise_lt_range'
  below := by
    intro v member
    have member' : v ∈ (a.newRoutine name params).values := by
      simpa [Routine.defined, newRoutine] using member
    obtain ⟨id, inRange, rfl⟩ := List.mem_map.1 member'
    exact (List.mem_range'_1.1 inRange).2
  doubles := by
    intro v member
    obtain ⟨id, -, rfl⟩ := List.mem_map.1 member
    rfl
  typed := by simp [newRoutine]

@[simp] theorem routine?_close (a : Assembly) (h k : Handle) :
    (a.close h).routine? k = a.routine? k := by
  unfold close
  split <;> rfl

@[simp] theorem nextValue_close (a : Assembly) (h : Handle) :
    (a.close h).nextValue = a.nextValue := by
  unfold close
  split <;> rfl

theorem Step.ordered (step : a.Step b) (ordered : a.Ordered) : b.Ordered := by
  cases step with
  | none => exact ordered
  | declared name params =>
    intro k s hs
    rw [routine?_push (b := a.declared name params) rfl] at hs
    split at hs
    · cases hs
      exact ordered_newRoutine a name params
    · exact (ordered k s hs).mono (Nat.le_add_right _ _)
  | @opened h r alive bodiless =>
    intro k s hs
    rw [routine?_fill alive] at hs
    split at hs
    · cases hs
      have before := (ordered h r alive).discard
      exact { before with typed := by simp }
    · exact ordered k s hs
  | @emitted h r body is next isOpen emits =>
    obtain ⟨-, alive, has⟩ := openBody?_eq_some_iff.1 isOpen
    intro k s hs
    rw [routine?_fill alive] at hs
    split at hs
    · cases hs
      exact (ordered h r alive).emit has emits
    · exact (ordered k s hs).mono emits.le
  | abandoned h =>
    intro k s hs
    rw [routine?_close] at hs
    rw [nextValue_close]
    have kept : a.routine? k = some s := by
      simp only [routine?, setSlot, Array.getElem?_setIfInBounds] at hs
      split at hs
      · split at hs <;> cases hs
      · exact hs
    exact ordered k s kept
  | @discarded h r alive =>
    intro k s hs
    rw [routine?_close, routine?_set alive rfl] at hs
    rw [nextValue_close]
    split at hs
    · cases hs
      exact (ordered h r alive).discard
    · exact ordered k s hs
  | closed dead =>
    intro k s hs
    rw [routine?_close] at hs
    rw [nextValue_close]
    exact ordered k s hs

/-- In every assembly that can be built the values of every routine are in order. -/
theorem Built.ordered (built : Built a) : a.Ordered := by
  induction built with
  | empty moduleName depthLimit => exact ordered_empty moduleName depthLimit
  | operate _ operates ih => exact (step_of_operates operates).ordered ih

end Assembly

end Reckon
