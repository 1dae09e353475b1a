/-
  The functions that an expression relies on.

  An expression relies on the functions that it calls, and on those that their bodies lead to.
  What is generated for a bare expression is a nameless routine behind all others (`Adds`), and
  calls lead from it to those functions and to no others (`Adds.relies`).  So where the
  functions that it relies on are the same in two assemblies, whatever else stands in them, it
  comes to the same in both (`Adds.evaluate_eq`).
-/
import Reckon.Proofs.Assembly.Running
import Reckon.Proofs.Generate.Numbering
import Reckon.Proofs.Meaning.Description

namespace Reckon

/-! ### Names that are called -/

namespace Expr

mutual
def called : Expr → List String
  | .num _ _ | .var _ _ => []
  | .bin _ left right _ => left.called ++ right.called
  | .call callee args _ => callee :: calledList args

def calledList : List Expr → List String
  | [] => []
  | e :: es => e.called ++ calledList es
end

end Expr

mutual
/-- A call in the code of an expression goes to a function of a name that it calls. -/
theorem Code.calls {callees : Callees} {scope : Scope Value} :
    ∀ {first next : Nat} {e : Expr} {is : List Instruction} {v : Value},
      Code callees scope first e is v next → ∀ dest k args, .call dest k args ∈ is →
        ∃ name ∈ e.called, ∃ count, callees name count k
  | _, _, _, _, _, .num first x s, dest, k, args, member => by simp at member
  | _, _, _, _, _, .var first s bound, dest, k, args, member => nomatch member
  | _, _, _, _, _, .arith s operation ofLeft ofRight, dest, k, args, member => by
    rw [Expr.called]
    rcases List.mem_append.1 member with inLeft | later
    · obtain ⟨name, among, goes⟩ := ofLeft.calls dest k args inLeft
      exact ⟨name, List.mem_append_left _ among, goes⟩
    rcases List.mem_append.1 later with inRight | last
    · obtain ⟨name, among, goes⟩ := ofRight.calls dest k args inRight
      exact ⟨name, List.mem_append_right _ among, goes⟩
    · simp at last
  | _, _, _, _, _, .lessThan s operation ofLeft ofRight, dest, k, args, member => by
    rw [Expr.called]
    rcases List.mem_append.1 member with inLeft | later
    · obtain ⟨name, among, goes⟩ := ofLeft.calls dest k args inLeft
      exact ⟨name, List.mem_append_left _ among, goes⟩
    rcases List.mem_append.1 later with inRight | last
    · obtain ⟨name, among, goes⟩ := ofRight.calls dest k args inRight
      exact ⟨name, List.mem_append_right _ among, goes⟩
    · simp at last
  | _, _, _, _, _, @Code.call _ _ _ _ callee h actual _ _ s found ofArgs, dest, k, args,
      member => by
    rw [Expr.called]
    rcases List.mem_append.1 member with inArgs | last
    · obtain ⟨name, among, goes⟩ := ofArgs.calls dest k args inArgs
      exact ⟨name, List.mem_cons_of_mem _ among, goes⟩
    · cases List.mem_singleton.1 last
      exact ⟨callee, List.mem_cons_self, _, found⟩

theorem CodeList.calls {callees : Callees} {scope : Scope Value} :
    ∀ {first next : Nat} {es : List Expr} {is : List Instruction} {vs : List Value},
      CodeList callees scope first es is vs next → ∀ dest k args, .call dest k args ∈ is →
        ∃ name ∈ Expr.calledList es, ∃ count, callees name count k
  | _, _, _, _, _, .nil first, dest, k, args, member => nomatch member
  | _, _, _, _, _, .cons ofHead ofTail, dest, k, args, member => by
    rw [Expr.calledList]
    rcases List.mem_append.1 member with inHead | inTail
    · obtain ⟨name, among, goes⟩ := ofHead.calls dest k args inHead
      exact ⟨name, List.mem_append_left _ among, goes⟩
    · obtain ⟨name, among, goes⟩ := ofTail.calls dest k args inTail
      exact ⟨name, List.mem_append_right _ among, goes⟩
end

namespace Assembly

variable {a b c c' : Assembly} {h k : Handle} {r : Routine} {e : Expr}

/-- The expression calls `k`, or a function whose calls lead to `k`. -/
def ReliesOn (a : Assembly) (e : Expr) (k : Handle) : Prop :=
  ∃ name ∈ e.called, ∃ h, a.lookup name = some h ∧ a.Leads h k

theorem ReliesOn.of_closed {P : Handle → Prop} (relies : a.ReliesOn e k)
    (first : ∀ name ∈ e.called, ∀ h, a.lookup name = some h → P h)
    (closed : ∀ h k, P h → a.Calls h k → P k) : P k := by
  obtain ⟨name, among, h, found, leads⟩ := relies
  exact leads.of_closed closed (first name among h found)

/-! ### Routines of bare expressions -/

def bareRoutine (is : List Instruction) (v : Value) : Routine :=
  ⟨"", [], [], some (is ++ [Instruction.ret v]).toArray⟩

/-- `c` is `a` with the routine of a bare expression behind all others. -/
structure Adds (a : Assembly) (e : Expr) (is : List Instruction) (v : Value) (next : Nat)
    (c : Assembly) : Prop where
  code : Code a.callees (.ofParams [] []) a.nextValue e is v next
  routine? : ∀ k, c.routine? k =
    if k = a.slots.size then some (bareRoutine is v) else a.routine? k
  depthLimit : c.depthLimit = a.depthLimit

theorem lookup_declared_nameless (a : Assembly) (params : List String) (name : String) :
    (a.declared "" params).lookup name = a.lookup name := by
  unfold lookup
  split
  · rfl
  · rename_i notEmpty
    have other : ("" == name) = false := by
      rw [beq_eq_false_iff_ne]
      rintro rfl
      exact notEmpty rfl
    simp [declared, newRoutine, Array.findIdx?_push, other]

theorem Defines.adds (defines : a.Defines (.anonymous e) h c) :
    h = a.slots.size ∧ ∃ is v next, a.Adds e is v next c := by
  obtain @⟨b, r, is, v, next, declares, here, -, code, -, rfl, -⟩ := defines
  cases declares with
  | found named => exact absurd rfl (lookup_eq_some_iff.1 named).1
  | new =>
    have new := routine?_declared a "" []
    cases here.symm.trans ((new a.slots.size).trans (if_pos rfl))
    refine ⟨rfl, is, v, next, ?_, fun k => ?_, rfl⟩
    · refine code.mono fun name count k => ?_
      rintro ⟨found, arity⟩
      have found' : a.lookup name = some k := (lookup_declared_nameless a [] name).symm.trans found
      obtain ⟨s, alive, -⟩ := routine?_of_lookup found'
      have old := (new k).trans (if_neg (Nat.ne_of_lt (lt_size_of_routine? alive)))
      have counted : (a.declared "" []).arity k = count := arity
      rw [Assembly.arity, old] at counted
      exact ⟨found', counted⟩
    · refine (routine?_fill here k).trans ?_
      by_cases last : k = a.slots.size
      · rw [if_pos last, if_pos last]
        rfl
      · rw [if_neg last, if_neg last]
        exact (new k).trans (if_neg last)

/-! ### What its calls lead to -/

theorem ReliesOn.calls (relies : a.ReliesOn e h) (calls : a.Calls h k) : a.ReliesOn e k := by
  obtain ⟨name, among, first, found, leads⟩ := relies
  exact ⟨name, among, first, found, leads.tail calls⟩

theorem Consistent.alive_of_calls (consistent : a.Consistent) (calls : a.Calls h k) :
    ∃ r, a.routine? k = some r := by
  obtain ⟨r, body, dest, args, alive, has, member⟩ := calls
  obtain ⟨target, live, -⟩ :=
    callsFit_of_check alive (consistent.checked h r alive) body has dest k args member
  exact ⟨target, mem_live.1 live⟩

section Adds

variable {is : List Instruction} {v : Value} {next : Nat} (adds : a.Adds e is v next c)
include adds

theorem Adds.old (alive : a.routine? k = some r) : c.routine? k = some r := by
  rw [adds.routine?, if_neg (Nat.ne_of_lt (lt_size_of_routine? alive)), alive]

/-- What calls lead to from the routine of a bare expression is that routine itself, or a live
    routine that the expression relies on. -/
theorem Adds.relies (consistent : a.Consistent) (leads : c.Leads a.slots.size k) :
    k = a.slots.size ∨ ∃ r, a.routine? k = some r ∧ a.ReliesOn e k := by
  refine leads.of_closed (P := fun k => k = a.slots.size ∨
    ∃ r, a.routine? k = some r ∧ a.ReliesOn e k) ?_ (.inl rfl)
  rintro k l (rfl | ⟨r, alive, relies⟩) ⟨s, body, dest, args, here, has, member⟩
  · rw [adds.routine?, if_pos rfl] at here
    cases here
    cases has
    rcases List.mem_append.1 member with inCode | last
    · obtain ⟨name, among, count, found, -⟩ := adds.code.calls dest l args inCode
      obtain ⟨r, alive, -⟩ := routine?_of_lookup found
      exact .inr ⟨r, alive, name, among, l, found, .refl⟩
    · simp at last
  · have same := (adds.old alive).symm.trans here
    cases same
    have calls : a.Calls k l := ⟨r, body, dest, args, alive, has, member⟩
    obtain ⟨u, alive'⟩ := consistent.alive_of_calls calls
    exact .inr ⟨u, alive', relies.calls calls⟩

end Adds

/-! ### Two assemblies with the same functions -/

theorem Grows.defined_below (grows : a.Grows b) (ordered : b.Ordered)
    (alive : a.routine? h = some r) : ∀ v ∈ r.defined, v.id < b.nextValue := by
  obtain ⟨s, alive', completes⟩ := grows h r alive
  intro v member
  have there : v ∈ s.defined := by
    cases completes with
    | same => exact member
    | body bodiless code =>
      have param : v ∈ r.values := by simpa [Routine.defined, bodiless] using member
      exact List.mem_append_left _ param
  exact (ordered h s alive').below v there

/-- The renaming that carries on from what is the same in both changes nothing that is there. -/
theorem Grows.onward_fixes (grows : a.Grows b) (consistent : a.Consistent) (ordered : a.Ordered)
    (ordered' : b.Ordered) (count : Nat) (alive : a.routine? k = some r) :
    (Renaming.refl.onward a b count).handle k = k ∧
      r.renamed (Renaming.refl.onward a b count) = r := by
  have handle : ∀ k r, a.routine? k = some r → (Renaming.refl.onward a b count).handle k = k := by
    intro k r alive
    obtain ⟨s, alive', -⟩ := grows k r alive
    exact Renaming.bridge_old (lt_size_of_routine? alive) (lt_size_of_routine? alive')
  have agrees : (Renaming.refl.onward a b count).AgreesOn .refl a := by
    refine consistent.agreesOn handle fun k r alive v member => ?_
    exact Renaming.bridge_old ((ordered k r alive).below v member)
      (grows.defined_below ordered' alive v member)
  have entries := agrees (k, r) (mem_live.2 alive)
  exact ⟨handle k r alive, (congrArg Prod.snd entries).trans r.renamed_refl⟩

/-- A bare expression comes to the same in two assemblies where the functions that it relies on
    are the same. -/
theorem Adds.evaluate_eq {is is' : List Instruction} {v v' : Value} {next next' : Nat}
    (adds : a.Adds e is v next c) (adds' : b.Adds e is' v' next' c') (grows : a.Grows b)
    (consistent : a.Consistent) (unique : b.UniqueNames) (ordered : a.Ordered)
    (ordered' : b.Ordered) (limit : b.depthLimit = a.depthLimit)
    (same : ∀ k r, a.routine? k = some r → a.ReliesOn e k → b.routine? k = some r)
    (orderedAfter : c.Ordered) (consistentAfter : c.Consistent) :
    c'.evaluate b.slots.size = c.evaluate a.slots.size := by
  let count := next - a.nextValue
  let ρ := Renaming.refl.onward a b count
  have continues : Continues ρ a b count := continues_onward .refl a b count
  have fixes : ∀ k r, a.routine? k = some r → ρ.handle k = k ∧ r.renamed ρ = r :=
    fun k r alive => grows.onward_fixes consistent ordered ordered' count alive
  -- The two codes are the same but for numbers, since calls by name go to the same handles.
  have called : ∀ name n h k, a.callees name n h → b.callees name n k → k = ρ.handle h := by
    intro name n h k goes goes'
    obtain ⟨r, alive, -⟩ := routine?_of_lookup goes.1
    have found := (grows.callees unique name n h goes).1
    rw [(fixes h r alive).1]
    exact Option.some.inj (goes'.1.symm.trans found)
  have unbound : ∀ name (v w : Value), (Scope.ofParams [] []).value? name = some v →
      (Scope.ofParams [] []).value? name = some w → w = v.renamed ρ := by
    intro name v w bound
    simp [Scope.ofParams, Scope.value?] at bound
  have upTo : next ≤ a.nextValue + count := by omega
  have starts : b.nextValue = b.nextValue + (a.nextValue - a.nextValue) := by omega
  obtain ⟨rfl, rfl, -⟩ := adds.code.renamed called unbound continues.value adds'.code
    (Nat.le_refl _) upTo starts
  have new : bareRoutine (is.map (·.renamed ρ)) (v.renamed ρ) = (bareRoutine is v).renamed ρ := by
    simp [bareRoutine, Routine.renamed, Instruction.renamed]
  have stays : ∀ k, c.Leads a.slots.size k →
      c'.routine? (ρ.handle k) = (c.routine? k).map (·.renamed ρ) := by
    intro k leads
    rcases adds.relies consistent leads with rfl | ⟨r, alive, relies⟩
    · rw [continues.handle, adds.routine?, adds'.routine?, if_pos rfl, if_pos rfl, new]
      rfl
    · obtain ⟨handle, routine⟩ := fixes k r alive
      rw [handle, adds.old alive, adds'.old (same k r alive relies), Option.map_some, routine]
  have limits : c'.depthLimit = c.depthLimit := by
    rw [adds'.depthLimit, adds.depthLimit, limit]
  have ran := evaluate_same stays limits orderedAfter consistentAfter
  rwa [continues.handle] at ran

end Assembly

end Reckon
