/-
  Routines being written.

  While the body of a routine is generated, only three things change: the instructions
  received so far, the number of the next value and, once, the place where emissions go.
  `fill` is the assembly in such a state, and each operation is shown to be a step from
  one such state to the next.
-/
import Reckon.Proofs.Assembly.Slots

namespace Reckon

/-! ### Calls to a target, one after the other -/

namespace Emit

variable {σ α β : Type}

theorem run_bind (call : Emit σ α) (f : α → Emit σ β) (s : σ) :
    (call >>= f).run s =
      match call.run s with
      | (.ok a, s') => (f a).run s'
      | (.error e, s') => (.error e, s') := by
  change (ExceptT.run (ExceptT.bind call f)) s = _
  simp only [ExceptT.run, ExceptT.bind, ExceptT.mk, bind, StateT.bind]
  rcases call s with ⟨_ | _, _⟩ <;> rfl

@[simp] theorem run_pure (a : α) (s : σ) : (pure a : Emit σ α).run s = (.ok a, s) := rfl

@[simp] theorem run_get (s : σ) : (get : Emit σ σ).run s = (.ok s, s) := rfl

@[simp] theorem run_set (s s' : σ) : (set s' : Emit σ PUnit).run s = (.ok ⟨⟩, s') := rfl

@[simp] theorem run_throw (e : TargetError) (s : σ) :
    (throw e : Emit σ α).run s = (.error e, s) := rfl

end Emit

namespace Assembly

/-- The assembly while `r` in slot `h` is being written: `code` was received, and `next`
    is the number of the next value. -/
def fill (a : Assembly) (h : Handle) (r : Routine) (code : List Instruction) (next : Nat) :
    Assembly :=
  { a with
    slots := a.slots.setIfInBounds h (some { r with body := some code.toArray })
    insertion := some h
    nextValue := next }

def newRoutine (a : Assembly) (name : String) (params : List String) : Routine :=
  { name, params
    values := (List.range' a.nextValue params.length).map fun id => ⟨id, .double⟩
    body := none }

def declared (a : Assembly) (name : String) (params : List String) : Assembly :=
  { a with
    slots := a.slots.push (some (a.newRoutine name params))
    nextValue := a.nextValue + params.length }

variable {a : Assembly} {h k : Handle} {r : Routine} {code : List Instruction} {next : Nat}

/-! ### Queries while a routine is written -/

theorem routine?_fill (hr : a.routine? h = some r) (k : Handle) :
    (a.fill h r code next).routine? k =
      if k = h then some { r with body := some code.toArray } else a.routine? k :=
  routine?_set hr rfl k

theorem lookup_fill (hr : a.routine? h = some r) (name : String) :
    (a.fill h r code next).lookup name = a.lookup name := by
  apply lookup_congr
  intro k
  rw [routine?_fill hr]
  split
  · rename_i same
    rw [same, hr]
    rfl
  · rfl

theorem isSome_routine?_fill (hr : a.routine? h = some r) {name : String}
    (found : a.lookup name = some k) : ((a.fill h r code next).routine? k).isSome := by
  obtain ⟨s, hs, -⟩ := routine?_of_lookup found
  rw [routine?_fill hr]
  split
  · rfl
  · rw [hs]
    rfl

theorem arity_fill (hr : a.routine? h = some r) (k : Handle) :
    (a.fill h r code next).arity k = a.arity k := by
  unfold arity
  rw [routine?_fill hr]
  by_cases same : k = h
  · rw [if_pos same, same, hr]
  · rw [if_neg same]

theorem params_fill (hr : a.routine? h = some r) :
    (a.fill h r code next).params h = r.values := by
  simp [params, routine?_fill hr]

/-! ### Live routines -/

/-- A routine that is written keeps its place among the live ones. -/
theorem live_fill (hr : a.routine? h = some r) :
    ∃ front back, a.live = front ++ (h, r) :: back ∧ ∀ code next,
      (a.fill h r code next).live =
        front ++ (h, { r with body := some code.toArray }) :: back := by
  obtain ⟨front, back, before, after⟩ := live_set hr
  exact ⟨front, back, before, fun code next => after (a.fill h r code next) _ rfl⟩

theorem live_declared (a : Assembly) (name : String) (params : List String) :
    (a.declared name params).live = a.live ++ [(a.slots.size, a.newRoutine name params)] :=
  live_push (b := a.declared name params) rfl

theorem live_fill_declared (a : Assembly) (name : String) (params : List String) :
    ((a.declared name params).fill a.slots.size r code next).live =
      a.live ++ [(a.slots.size, { r with body := some code.toArray })] :=
  live_push (Array.ext' (by simp [fill, declared]))

/-! ### Operations while a routine is written -/

theorem openBody?_fill (hr : a.routine? h = some r) :
    (a.fill h r code next).openBody? =
      some (h, { r with body := some code.toArray }, code.toArray) := by
  have here : (a.fill h r code next).routine? h = some { r with body := some code.toArray } := by
    rw [routine?_fill hr, if_pos rfl]
  change ((a.fill h r code next).routine? h).bind _ = _
  rw [here]
  rfl

theorem run_push (hr : a.routine? h = some r) (i : Instruction) :
    (push i).run (a.fill h r code next) = (.ok (), a.fill h r (code ++ [i]) next) := by
  simp only [push, Emit.run_bind, Emit.run_get, openBody?_fill hr, Emit.run_set]
  simp [setSlot, fill]

theorem run_emit (hr : a.routine? h = some r) (type : ValueType)
    (make : Value → Instruction) :
    (emit type make).run (a.fill h r code next) =
      (.ok ⟨next, type⟩, a.fill h r (code ++ [make ⟨next, type⟩]) (next + 1)) := by
  have isOpen : requireOpen.run (a.fill h r code next) = (.ok (), a.fill h r code next) := by
    simp [requireOpen, Emit.run_bind, openBody?_fill hr]
  have taken : (fresh type).run (a.fill h r code next) =
      (.ok ⟨next, type⟩, a.fill h r code (next + 1)) := rfl
  simp only [emit, Emit.run_bind, isOpen, taken, run_push hr, Emit.run_pure]

theorem run_emitLessThan (hr : a.routine? h = some r) (left right : Value) :
    (emitLessThan left right).run (a.fill h r code next) =
      (.ok ⟨next + 1, .double⟩,
        a.fill h r (code ++ [.lessThan ⟨next, .bool⟩ left right,
          .widen ⟨next + 1, .double⟩ ⟨next, .bool⟩]) (next + 2)) := by
  simp only [emitLessThan, Emit.run_bind, run_emit hr, List.append_assoc, List.cons_append,
    List.nil_append]

theorem run_emitCall (hr : a.routine? h = some r) (callee : Handle) (args : List Value) :
    (emitCall callee args).run (a.fill h r code next) =
      if ((a.fill h r code next).routine? callee).isSome then
        (.ok ⟨next, .double⟩, a.fill h r (code ++ [.call ⟨next, .double⟩ callee args]) (next + 1))
      else (.error .staleHandle, a.fill h r code next) := by
  cases found : (a.fill h r code next).routine? callee <;>
    simp [emitCall, Emit.run_bind, run_emit hr, found]

/-! ### Declaring, opening and taking back -/

theorem run_declare (a : Assembly) (name : String) (params : List String) :
    (declare name params).run a =
      if (a.lookup name).isSome then (.error (.duplicateFunction name), a)
      else (.ok a.slots.size, a.declared name params) := by
  simp only [declare, Emit.run_bind, Emit.run_get]
  split <;> rfl

theorem run_openBody (hr : a.routine? h = some r) (bodiless : r.body = none) :
    (openBody h).run a = (.ok (), a.fill h r [] a.nextValue) := by
  simp [openBody, Emit.run_bind, hr, bodiless, fill, setSlot]

theorem run_modify (f : Assembly → Assembly) :
    ((modify f : StateM Assembly Unit).run a).2 = f a := rfl

theorem run_discardBody (hr : a.routine? h = some r) :
    ((discardBody h).run a).2 = (a.setSlot h (some { r with body := none })).close h := by
  rw [discardBody, run_modify, hr]

theorem run_discardBody_none (gone : a.routine? h = none) :
    ((discardBody h).run a).2 = a.close h := by
  rw [discardBody, run_modify, gone]

end Assembly

end Reckon
