/-
  Targets that build an assembly but may fail.

  A target is `Unreliable` when, seen through a view of its state, it builds an assembly
  as the assembly's own operations do, except that any call that can fail may also fail
  without effect, whenever it likes, and that a verification may refuse.  Nothing is said
  about when it fails, so what holds of every unreliable target holds whichever calls of a
  run are made to fail.

  The assembly's own target is one, and so is any unreliable target with capabilities made
  to fail, or with a plan that picks the failing calls of a run one by one.
-/
import Reckon.Proofs.Assembly.Draft
import Reckon.Assembly.Target
import Reckon.Target.Faulty

namespace Reckon

open Assembly

variable {σ V F α : Type}

/-- `call` does to the assembly in `view` what `sure` does to it and has the same answer,
    or it fails and the assembly stays as it is. -/
def Emit.MayFail (view : σ → Assembly) (call : Emit σ α) (sure : Emit Assembly α) : Prop :=
  ∀ s, ((call.run s).1, view (call.run s).2) = sure.run (view s) ∨
    ∃ e, (call.run s).1 = .error e ∧ view (call.run s).2 = view s

/-- The target builds the assembly in `view`, and any call that can fail may do so. -/
structure Target.Unreliable (t : Target σ Value Handle) (view : σ → Assembly) : Prop where
  literal : ∀ x, (t.literal x).MayFail view (emitLiteral x)
  arith : ∀ op x y, (t.arith op x y).MayFail view (emitArith op x y)
  lessThan : ∀ x y, (t.lessThan x y).MayFail view (emitLessThan x y)
  declare : ∀ name params, (t.declare name params).MayFail view (Assembly.declare name params)
  openBody : ∀ h, (t.openBody h).MayFail view (Assembly.openBody h)
  call : ∀ h args, (t.call h args).MayFail view (emitCall h args)
  ret : ∀ x, (t.ret x).MayFail view (emitRet x)
  abandon : ∀ h s, view ((t.abandon h).run s).2 = ((Assembly.abandon h).run (view s)).2
  discardBody : ∀ h s,
    view ((t.discardBody h).run s).2 = ((Assembly.discardBody h).run (view s)).2
  /-- A verification changes nothing, and it accepts only what is well-formed. -/
  verify : ∀ h s, view ((t.verify h).run s).2 = view s ∧
    (((t.verify h).run s).1 = true → (view s).check h = true)
  lookup : ∀ s name, t.lookup s name = (view s).lookup name
  hasBody : ∀ s h, t.hasBody s h = (view s).hasBody h
  arity : ∀ s h, t.arity s h = (view s).arity h
  params : ∀ s h, t.params s h = (view s).params h
  /-- Running a function changes nothing, whatever comes of it. -/
  evaluate : ∀ h s, view ((t.evaluate h).run s).2 = view s

/-! ### The assembly's own target -/

theorem Emit.mayFail_self (call : Emit Assembly α) : call.MayFail id call :=
  fun _ => Or.inl rfl

/-- The assembly's own target never fails but for its own reasons. -/
theorem Assembly.unreliable_target : target.Unreliable id where
  literal _ := Emit.mayFail_self _
  arith _ _ _ := Emit.mayFail_self _
  lessThan _ _ := Emit.mayFail_self _
  declare _ _ := Emit.mayFail_self _
  openBody _ := Emit.mayFail_self _
  call _ _ := Emit.mayFail_self _
  ret _ := Emit.mayFail_self _
  abandon _ _ := rfl
  discardBody _ _ := rfl
  verify _ _ := ⟨rfl, id⟩
  lookup _ _ := rfl
  hasBody _ _ := rfl
  arity _ _ := rfl
  params _ _ := rfl
  evaluate h a := by
    change ((evaluated h).run a).2 = a
    unfold evaluated
    cases result : a.evaluate h <;> simp [Emit.run_bind, result]

/-! ### Failing capabilities -/

theorem Faults.mayFail_guard {view : σ → Assembly} {call : Emit σ α} {sure : Emit Assembly α}
    (faults : Faults) (capability : Capability) (h : call.MayFail view sure) :
    (faults.guard capability call).MayFail view sure := by
  intro s
  unfold Faults.guard
  cases faults.failure capability with
  | none => exact h s
  | some e => exact Or.inr ⟨e, rfl, rfl⟩

theorem Target.Unreliable.withFaults {t : Target σ Value Handle} {view : σ → Assembly}
    (ht : t.Unreliable view) (faults : Faults) : (t.withFaults faults).Unreliable view where
  literal x := faults.mayFail_guard _ (ht.literal x)
  arith op x y := faults.mayFail_guard _ (ht.arith op x y)
  lessThan x y := faults.mayFail_guard _ (ht.lessThan x y)
  declare name params := faults.mayFail_guard _ (ht.declare name params)
  openBody h := faults.mayFail_guard _ (ht.openBody h)
  call h args := faults.mayFail_guard _ (ht.call h args)
  ret x := faults.mayFail_guard _ (ht.ret x)
  abandon := ht.abandon
  discardBody := ht.discardBody
  verify h s := by
    by_cases refuses : faults.refuses = true
    · simp only [Target.withFaults, refuses, if_true]
      exact ⟨rfl, by intro absurd; cases absurd⟩
    · simpa [Target.withFaults, refuses] using ht.verify h s
  lookup := ht.lookup
  hasBody := ht.hasBody
  arity := ht.arity
  params := ht.params
  evaluate := ht.evaluate

/-! ### Failures by plan -/

structure Counted (σ : Type) where
  inner : σ
  calls : Nat

namespace Counted

def attempt (plan : Nat → Option TargetError) (call : Emit σ α) : Emit (Counted σ) α := fun s =>
  match plan s.calls with
  | some e => (.error e, { s with calls := s.calls + 1 })
  | none =>
    let (result, inner) := call.run s.inner
    (result, ⟨inner, s.calls + 1⟩)

def attemptVerify (plan : Nat → Option TargetError) (call : StateM σ Bool) :
    StateM (Counted σ) Bool := fun s =>
  match plan s.calls with
  | some _ => (false, { s with calls := s.calls + 1 })
  | none =>
    let (verdict, inner) := call.run s.inner
    (verdict, ⟨inner, s.calls + 1⟩)

def inside (call : StateM σ α) : StateM (Counted σ) α := fun s =>
  let (a, inner) := call.run s.inner
  (a, { s with inner })

end Counted

/-- The target where the calls of a run fail by a plan: the n-th call fails, or refuses to
    verify, if the plan says so of `n`. -/
def Target.interrupted (t : Target σ V F) (plan : Nat → Option TargetError) :
    Target (Counted σ) V F where
  literal x := Counted.attempt plan (t.literal x)
  arith op x y := Counted.attempt plan (t.arith op x y)
  lessThan x y := Counted.attempt plan (t.lessThan x y)
  declare name params := Counted.attempt plan (t.declare name params)
  openBody f := Counted.attempt plan (t.openBody f)
  call f args := Counted.attempt plan (t.call f args)
  ret x := Counted.attempt plan (t.ret x)
  abandon f := Counted.inside (t.abandon f)
  discardBody f := Counted.inside (t.discardBody f)
  verify f := Counted.attemptVerify plan (t.verify f)
  lookup s name := t.lookup s.inner name
  hasBody s f := t.hasBody s.inner f
  arity s f := t.arity s.inner f
  params s f := t.params s.inner f
  print s f := t.print s.inner f
  evaluate f := Counted.inside (t.evaluate f)

theorem Counted.mayFail_attempt {view : σ → Assembly} {call : Emit σ α}
    {sure : Emit Assembly α} (plan : Nat → Option TargetError) (h : call.MayFail view sure) :
    (Counted.attempt plan call).MayFail (fun s => view s.inner) sure := by
  intro s
  change ((Counted.attempt plan call s).1, view (Counted.attempt plan call s).2.inner) =
      sure.run (view s.inner) ∨
    ∃ e, (Counted.attempt plan call s).1 = .error e ∧
      view (Counted.attempt plan call s).2.inner = view s.inner
  unfold Counted.attempt
  cases plan s.calls with
  | none => exact h s.inner
  | some e => exact Or.inr ⟨e, rfl, rfl⟩

theorem Target.Unreliable.interrupted {t : Target σ Value Handle} {view : σ → Assembly}
    (ht : t.Unreliable view) (plan : Nat → Option TargetError) :
    (t.interrupted plan).Unreliable fun s => view s.inner where
  literal x := Counted.mayFail_attempt plan (ht.literal x)
  arith op x y := Counted.mayFail_attempt plan (ht.arith op x y)
  lessThan x y := Counted.mayFail_attempt plan (ht.lessThan x y)
  declare name params := Counted.mayFail_attempt plan (ht.declare name params)
  openBody h := Counted.mayFail_attempt plan (ht.openBody h)
  call h args := Counted.mayFail_attempt plan (ht.call h args)
  ret x := Counted.mayFail_attempt plan (ht.ret x)
  abandon h s := ht.abandon h s.inner
  discardBody h s := ht.discardBody h s.inner
  verify h s := by
    change view (Counted.attemptVerify plan (t.verify h) s).2.inner = view s.inner ∧
      ((Counted.attemptVerify plan (t.verify h) s).1 = true → (view s.inner).check h = true)
    unfold Counted.attemptVerify
    cases plan s.calls with
    | none => exact ht.verify h s.inner
    | some e => exact ⟨rfl, fun absurd => nomatch absurd⟩
  lookup s := ht.lookup s.inner
  hasBody s := ht.hasBody s.inner
  arity s := ht.arity s.inner
  params s := ht.params s.inner
  evaluate h s := ht.evaluate h s.inner

end Reckon
