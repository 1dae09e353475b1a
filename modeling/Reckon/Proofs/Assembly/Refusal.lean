/-
  Refused calls.

  A call to the target of an assembly does all of its work or none.  What is refused leaves the
  assembly as it was, with its slots, the place where emissions go and the number of the next
  value.  A comparison is emitted along with the conversion of its outcome, and whatever is
  opened, discarded or given up in between, no body ever has the one without the other
  (`Built.converted`).
-/
import Reckon.Proofs.Assembly.Built

namespace Reckon

/-! ### Comparisons with their conversions -/

/-- Each comparison is followed by the conversion of its outcome, which defines the value after
    it. -/
def Converted (is : List Instruction) : Prop :=
  ∀ i dest left right, is[i]? = some (.lessThan dest left right) →
    is[i + 1]? = some (.widen ⟨dest.id + 1, .double⟩ dest)

theorem Converted.nil : Converted [] := fun _ _ _ _ at_i => nomatch at_i

theorem Converted.append {before after : List Instruction} (first : Converted before)
    (second : Converted after) : Converted (before ++ after) := by
  intro i dest left right at_i
  by_cases lt : i < before.length
  · rw [List.getElem?_append_left lt] at at_i
    have follows := first i dest left right at_i
    obtain ⟨inside, -⟩ := List.getElem?_eq_some_iff.1 follows
    rw [List.getElem?_append_left inside, follows]
  · have le := Nat.le_of_not_lt lt
    rw [List.getElem?_append_right le] at at_i
    rw [List.getElem?_append_right (Nat.le_succ_of_le le), Nat.succ_sub le]
    exact second _ dest left right at_i

theorem Emits.converted {next next' : Nat} {is : List Instruction} (emits : Emits next is next') :
    Converted is := by
  intro i dest left right at_i
  cases emits with
  | lessThan l r =>
    match i with
    | 0 =>
      cases at_i
      rfl
    | 1 => cases at_i
    | i + 2 => simp at at_i
  | _ =>
    match i with
    | 0 => cases at_i
    | i + 1 => simp at at_i

namespace Assembly

variable {a b : Assembly} {e : TargetError}

def ComparisonsConverted (a : Assembly) : Prop :=
  ∀ h r body, a.routine? h = some r → r.body = some body → Converted body.toList

theorem Step.converted (step : a.Step b) (converted : a.ComparisonsConverted) :
    b.ComparisonsConverted := by
  intro k s code alive has
  cases step with
  | none => exact converted k s code alive has
  | declared name params =>
    rw [routine?_push (b := a.declared name params) rfl] at alive
    split at alive
    · cases alive
      cases has
    · exact converted k s code alive has
  | opened here bodiless =>
    rw [routine?_fill here] at alive
    split at alive
    · cases alive
      cases has
      exact .nil
    · exact converted k s code alive has
  | emitted isOpen emits =>
    obtain ⟨-, here, body⟩ := openBody?_eq_some_iff.1 isOpen
    rw [routine?_fill here] at alive
    split at alive
    · cases alive
      cases has
      exact (converted _ _ _ here body).append emits.converted
    · exact converted k s code alive has
  | abandoned h =>
    rw [routine?_close] at alive
    refine converted k s code ?_ has
    simp only [routine?, setSlot, Array.getElem?_setIfInBounds] at alive
    split at alive
    · split at alive <;> cases alive
    · exact alive
  | discarded here =>
    rw [routine?_close, routine?_set here rfl] at alive
    split at alive
    · cases alive
      cases has
    · exact converted k s code alive has
  | closed =>
    rw [routine?_close] at alive
    exact converted k s code alive has

theorem Built.converted (built : a.Built) : a.ComparisonsConverted := by
  induction built with
  | empty moduleName depthLimit => exact fun _ _ _ alive => nomatch alive
  | operate _ operates ih => exact (step_of_operates operates).converted ih

/-! ### Calls that are refused -/

/-- A call that may be refused is, with the error `e`, and the assembly is `b` after it. -/
inductive Rejects (a : Assembly) (e : TargetError) (b : Assembly) : Prop where
  | literal (x : Float) (ran : (target.literal x).run a = (.error e, b))
  | arith (op : Arith) (left right : Value)
    (ran : (target.arith op left right).run a = (.error e, b))
  | lessThan (left right : Value) (ran : (target.lessThan left right).run a = (.error e, b))
  | declare (name : String) (params : List String)
    (ran : (target.declare name params).run a = (.error e, b))
  | openBody (h : Handle) (ran : (target.openBody h).run a = (.error e, b))
  | call (h : Handle) (args : List Value) (ran : (target.call h args).run a = (.error e, b))
  | ret (value : Value) (ran : (target.ret value).run a = (.error e, b))

/-- What in an assembly stands against a call, by the error of the call. -/
inductive Obstacle (a : Assembly) : TargetError → Prop where
  | noOpenBody (closed : a.openBody? = none) : Obstacle a .noOpenBody
  | duplicateFunction {name : String} (found : (a.lookup name).isSome) :
    Obstacle a (.duplicateFunction name)
  | bodyPresent {h : Handle} {r : Routine} (alive : a.routine? h = some r)
    (has : r.body.isSome) : Obstacle a (.bodyPresent r.name)
  | staleHandle {h : Handle} (dead : a.routine? h = none) : Obstacle a .staleHandle

theorem obstacle_of_emitted {α : Type} {is : List Instruction} {next : Nat} {result : α}
    (ran : a.emitted is next result = (.error e, b)) : b = a ∧ a.Obstacle e := by
  unfold emitted at ran
  cases isOpen : a.openBody? with
  | some here =>
    rw [isOpen] at ran
    cases ran
  | none =>
    rw [isOpen] at ran
    cases ran
    exact ⟨rfl, .noOpenBody isOpen⟩

theorem Rejects.obstacle (rejects : a.Rejects e b) : b = a ∧ a.Obstacle e := by
  cases rejects with
  | literal x ran => exact obstacle_of_emitted ((run_emit_eq a _ _).symm.trans ran)
  | arith op left right ran => exact obstacle_of_emitted ((run_emit_eq a _ _).symm.trans ran)
  | lessThan left right ran =>
    exact obstacle_of_emitted ((run_emitLessThan_eq a _ _).symm.trans ran)
  | declare name params ran =>
    have eq := (run_declare a name params).symm.trans ran
    split at eq
    · rename_i found
      cases eq
      exact ⟨rfl, .duplicateFunction found⟩
    · cases eq
  | openBody h ran =>
    have eq := (run_openBody_eq a h).symm.trans ran
    split at eq
    · rename_i dead
      cases eq
      exact ⟨rfl, .staleHandle dead⟩
    · rename_i r alive
      split at eq
      · rename_i has
        cases eq
        exact ⟨rfl, .bodyPresent alive has⟩
      · cases eq
  | call h args ran =>
    have eq := (run_emitCall_eq a h args).symm.trans ran
    split at eq
    · exact obstacle_of_emitted eq
    · rename_i dead
      cases eq
      exact ⟨rfl, .staleHandle (Option.not_isSome_iff_eq_none.1 dead)⟩
  | ret value ran => exact obstacle_of_emitted ((run_push_eq a _).symm.trans ran)

/-- In an assembly that was built by any calls, a call is refused only for what stands against
    it there, and then it changes nothing; and there is no comparison without its conversion. -/
theorem rejection_keeps_all (built : a.Built) (rejects : a.Rejects e b) :
    b = a ∧ b.ComparisonsConverted ∧ a.Obstacle e := by
  obtain ⟨rfl, obstacle⟩ := rejects.obstacle
  exact ⟨rfl, built.converted, obstacle⟩

/-- A body that was left with a comparison at its end, since another one was opened and its
    routine given up. -/
def leftOpen : Assembly :=
  List.foldl (fun a call => call a) (empty "leftOpen" 8)
    [fun a => ((target.declare "" ["x"]).run a).2,
     fun a => ((target.openBody 0).run a).2,
     fun a => ((target.lessThan ⟨0, .double⟩ ⟨9, .bool⟩).run a).2,
     fun a => ((target.declare "" []).run a).2,
     fun a => ((target.openBody 1).run a).2,
     fun a => ((target.literal 1).run a).2,
     fun a => ((target.abandon 1).run a).2]

theorem built_leftOpen : leftOpen.Built :=
  .operate (.operate (.operate (.operate (.operate (.operate (.operate (.empty "leftOpen" 8)
    (.declare _ _)) (.openBody _)) (.lessThan _ _)) (.declare _ _)) (.openBody _)) (.literal _))
      (.abandon _)

/-- Nothing is open then: a second comparison is refused, takes no number and stands nowhere. -/
theorem rejection_keeps_all_left_open :
    leftOpen.Built ∧
      (∃ b, (target.lessThan ⟨2, .double⟩ ⟨0, .double⟩).run leftOpen = (.error .noOpenBody, b) ∧
        b = leftOpen ∧ b.ComparisonsConverted ∧ leftOpen.Obstacle .noOpenBody) ∧
      leftOpen.nextValue = 4 ∧
      leftOpen.live = [(0, ⟨"", ["x"], [⟨0, .double⟩], some #[
        .lessThan ⟨1, .bool⟩ ⟨0, .double⟩ ⟨9, .bool⟩, .widen ⟨2, .double⟩ ⟨1, .bool⟩]⟩)] := by
  have ran : (target.lessThan ⟨2, .double⟩ ⟨0, .double⟩).run leftOpen =
      (.error .noOpenBody, leftOpen) := by
    have closed : leftOpen.openBody? = none := rfl
    change (emitLessThan _ _).run leftOpen = _
    rw [run_emitLessThan_eq, emitted, closed]
  have kept := rejection_keeps_all built_leftOpen (.lessThan _ _ ran)
  exact ⟨built_leftOpen, ⟨_, ran, kept⟩, rfl, rfl⟩

end Assembly

end Reckon
