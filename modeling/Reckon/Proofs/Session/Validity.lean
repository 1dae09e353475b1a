/-
  Live routines are valid.

  A body is checked once, when it is generated, and other routines come and go after that.
  The check of a body depends on them, for it asks of each call that its callee is alive
  and takes as many arguments as the call brings.  It stays true because routines are only
  given up before anything calls them: an act keeps every routine that was alive before it
  (`Effect.grows`), and what it gives up it has declared itself.

  The main statement is `live_valid`: in every state of every run over a fresh assembly the
  check accepts every live routine, and what the check is there for holds of every call.
-/
import Reckon.Proofs.Session.Reach

namespace Reckon

namespace Assembly

variable {a : Assembly} {h : Handle} {r : Routine}

def CallsFit (a : Assembly) (r : Routine) : Prop :=
  ∀ body, r.body = some body → ∀ dest callee args, .call dest callee args ∈ body.toList →
    ∃ target, (callee, target) ∈ a.live ∧ target.params.length = args.length

/-- The check of a body looks at every instruction. -/
theorem calleeFits_of_checkBody {is : List Instruction} {known : List Value}
    (checked : a.checkBody known is = true) : ∀ i ∈ is, a.calleeFits i = true := by
  induction is generalizing known with
  | nil => exact fun i member => nomatch member
  | cons i rest ih =>
    simp only [checkBody, Bool.and_eq_true] at checked
    obtain ⟨⟨-, fits⟩, rest_checked⟩ := checked
    intro j member
    rcases List.mem_cons.1 member with rfl | later
    · exact fits
    cases defined : i.dest? with
    | none =>
      -- Nothing stands after a return.
      rw [defined] at rest_checked
      rw [List.isEmpty_iff.1 rest_checked] at later
      exact nomatch later
    | some dest =>
      rw [defined] at rest_checked
      exact ih rest_checked j later

theorem callsFit_of_check (hr : a.routine? h = some r) (checked : a.check h = true) :
    a.CallsFit r := by
  intro body has dest callee args member
  simp only [check, hr, has] at checked
  have fits := calleeFits_of_checkBody checked _ member
  simp only [calleeFits] at fits
  cases found : a.routine? callee with
  | none => simp [found] at fits
  | some target =>
    rw [found] at fits
    exact ⟨target, mem_live.2 found, by simpa using fits⟩

end Assembly

namespace Session

variable {σ : Type} {t : Target σ Value Handle} {view : σ → Assembly}
variable {s s₀ : Session σ Value}

/-- In every state of every run over a fresh assembly, whichever calls of the target failed,
    the check accepts every live function.  So no live body calls a function that was given
    up, or one that takes another number of arguments than the call brings. -/
theorem live_valid (ht : t.Unreliable view) (fresh : s₀.Fresh view)
    (reaches : Reaches t s₀ s) :
    ∀ entry ∈ (view s.generator.target).live,
      (view s.generator.target).check entry.1 = true ∧
        (view s.generator.target).CallsFit entry.2 := by
  intro entry member
  have alive := Assembly.mem_live.1 member
  have checked := (consistent_of_reaches ht fresh reaches).checked entry.1 entry.2 alive
  exact ⟨checked, Assembly.callsFit_of_check alive checked⟩

/-- A function is called that is only declared, and completing it fails in the middle. -/
theorem live_valid_failed_completion :
    let plan := fun call => if call = 8 then some (TargetError.builder "out of memory") else none
    let t := Assembly.target.interrupted plan
    let s₀ : Session (Counted Assembly) Value :=
      .ofSource "extern f(x) def g(y) f(y) def f(x) x+1" "" ⟨.empty "" 256, 0⟩ {}
    let s := (((s₀.external t).2.definition t).2.definition t).2
    ∀ entry ∈ s.generator.target.inner.live,
      s.generator.target.inner.check entry.1 = true ∧
        s.generator.target.inner.CallsFit entry.2 := by
  intro plan t s₀ s
  have reaches : Reaches t s₀ s := .act (.act (.act .start .external) .definition) .definition
  exact live_valid (Assembly.unreliable_target.interrupted plan) ⟨rfl, _, _, rfl⟩ reaches

end Session

end Reckon
