/-
  The representation of an assembly.

  Any sequence of calls to an assembly, with whatever values and handles, leaves it in good
  order.  No two live routines share a name that is not empty, every value of the module has
  a number of its own, and emissions go to a live routine with a body or nowhere.  The
  handle of a routine that was given up stays without a routine, and no handle is issued
  twice.

  Every step touches one slot at most.  What the routine there comes to define is new or was
  defined there before (`Step.touches`), and so the routines stay apart.  The main statement
  is `representation`.
-/
import Mathlib.Data.List.Nodup
import Mathlib.Logic.Relation
import Reckon.Proofs.Assembly.Built
import Reckon.Proofs.Session.Effect

namespace Reckon.Assembly

variable {a b c : Assembly} {h k : Handle} {r s : Routine}

/-! ### What is kept -/

/-- No value of one routine has the number of a value of another. -/
def Apart (a : Assembly) : Prop :=
  ∀ h k r s, h ≠ k → a.routine? h = some r → a.routine? k = some s →
    ∀ v ∈ r.defined, ∀ w ∈ s.defined, v.id ≠ w.id

/-- Emissions go to a live routine with a body, or nowhere. -/
def Inserts (a : Assembly) : Prop :=
  ∀ h, a.insertion = some h → ∃ r, a.routine? h = some r ∧ r.body.isSome

structure Represents (a : Assembly) : Prop where
  unique : a.UniqueNames
  found : ∀ name h, a.lookup name = some h ↔
    name ≠ "" ∧ ∃ r, a.routine? h = some r ∧ r.name = name
  counted : ∀ h r, a.routine? h = some r → r.values.length = r.params.length
  distinct : (a.live.flatMap fun entry => entry.2.defined.map (·.id)).Nodup
  below : ∀ h r, a.routine? h = some r → ∀ v ∈ r.defined, v.id < a.nextValue
  inserts : a.Inserts

def Later : Assembly → Assembly → Prop := Relation.ReflTransGen Operates

def Issued (a : Assembly) (h : Handle) : Prop :=
  ∃ before name params after, before.Built ∧
    (target.declare name params).run before = (.ok h, after) ∧ after.Later a

structure Handles (a : Assembly) : Prop where
  issued : ∀ h r, a.routine? h = some r → a.Issued h
  fresh : ∀ name params h b, (target.declare name params).run a = (.ok h, b) → ¬ a.Issued h
  gone : ∀ h, a.Issued h → ∀ b, ((target.abandon h).run a).2.Later b → b.routine? h = none

/-! ### Steps touch one slot -/

/-- Only slot `h` may hold another routine in `b` than in `a`, and what the routine there
    defines is new or was defined there before. -/
structure Touches (a : Assembly) (h : Handle) (b : Assembly) : Prop where
  elsewhere : ∀ k, k ≠ h → b.routine? k = a.routine? k
  defined : ∀ s, b.routine? h = some s → ∀ v ∈ s.defined,
    a.nextValue ≤ v.id ∨ ∃ r, a.routine? h = some r ∧ v ∈ r.defined

theorem touches_same (same : b.routine? = a.routine?) (h : Handle) : a.Touches h b := by
  constructor
  · intro k _
    rw [same]
  · intro s hs v member
    rw [same] at hs
    exact Or.inr ⟨s, hs, member⟩

theorem touches_declared (a : Assembly) (name : String) (params : List String) :
    a.Touches a.slots.size (a.declared name params) := by
  constructor
  · intro k ne
    rw [routine?_declared, if_neg ne]
  · intro s hs v member
    left
    rw [routine?_declared, if_pos rfl] at hs
    cases hs
    have param : v ∈ (a.newRoutine name params).values := by
      simpa [Routine.defined, newRoutine] using member
    obtain ⟨id, inRange, rfl⟩ := List.mem_map.1 param
    exact (List.mem_range'_1.1 inRange).1

theorem touches_fill {code : List Instruction} {next : Nat} (alive : a.routine? h = some r)
    (new : ∀ v ∈ code.filterMap Instruction.dest?, a.nextValue ≤ v.id ∨ v ∈ r.defined) :
    a.Touches h (a.fill h r code next) := by
  constructor
  · intro k ne
    rw [routine?_fill alive, if_neg ne]
  · intro s hs v member
    rw [routine?_fill alive, if_pos rfl] at hs
    cases hs
    rw [Routine.defined_some] at member
    rcases List.mem_append.1 member with param | result
    · exact Or.inr ⟨r, alive, List.mem_append_left _ param⟩
    · exact (new v result).imp_right fun old => ⟨r, alive, old⟩

theorem routine?_abandoned (a : Assembly) (h k : Handle) :
    ((a.setSlot h none).close h).routine? k = if k = h then none else a.routine? k := by
  rw [routine?_close]
  by_cases same : k = h
  · subst same
    simp only [routine?, setSlot, Array.getElem?_setIfInBounds, if_pos]
    split <;> rfl
  · simp only [routine?, setSlot, Array.getElem?_setIfInBounds, if_neg same,
      if_neg (Ne.symm same)]

theorem Step.touches (step : a.Step b) : ∃ h, a.Touches h b := by
  cases step with
  | none => exact ⟨0, touches_same rfl 0⟩
  | declared name params => exact ⟨_, touches_declared a name params⟩
  | @opened h r alive => exact ⟨h, touches_fill alive fun v member => nomatch member⟩
  | @emitted h r body is next isOpen emits =>
    obtain ⟨-, alive, has⟩ := openBody?_eq_some_iff.1 isOpen
    refine ⟨h, touches_fill alive fun v member => ?_⟩
    rw [List.filterMap_append] at member
    rcases List.mem_append.1 member with old | new
    · right
      exact List.mem_append_right _ (by simpa [has] using old)
    · left
      exact (emits.defined.2 v new).1
  | abandoned h =>
    refine ⟨h, ?_, ?_⟩
    · intro k ne
      rw [routine?_abandoned, if_neg ne]
    · intro s hs
      rw [routine?_abandoned, if_pos rfl] at hs
      exact nomatch hs
  | @discarded h r alive =>
    refine ⟨h, ?_, ?_⟩
    · intro k ne
      rw [routine?_close, routine?_set alive rfl, if_neg ne]
    · intro s hs v member
      rw [routine?_close, routine?_set alive rfl, if_pos rfl] at hs
      cases hs
      rw [Routine.defined_none] at member
      exact Or.inr ⟨r, alive, List.mem_append_left _ member⟩
  | @closed h dead => exact ⟨h, touches_same (funext (routine?_close a h)) h⟩

/-! ### Steps keep the order -/

theorem Step.apart (step : a.Step b) (ordered : a.Ordered) (apart : a.Apart) : b.Apart := by
  obtain ⟨at_h, touches⟩ := step.touches
  -- A value of the slot that was touched against one of another slot.
  have across : ∀ k r s, k ≠ at_h → b.routine? at_h = some r → b.routine? k = some s →
      ∀ v ∈ r.defined, ∀ w ∈ s.defined, v.id ≠ w.id := by
    intro k r s ne hr hs v memberV w memberW
    rw [touches.elsewhere k ne] at hs
    rcases touches.defined r hr v memberV with new | ⟨old, alive, memberV⟩
    · have lt := (ordered k s hs).below w memberW
      omega
    · exact apart at_h k old s (Ne.symm ne) alive hs v memberV w memberW
  intro h k r s ne hr hs v memberV w memberW
  by_cases eq : h = at_h
  · subst eq
    exact across k r s (Ne.symm ne) hr hs v memberV w memberW
  · by_cases eq' : k = at_h
    · subst eq'
      exact Ne.symm (across h s r eq hs hr w memberW v memberV)
    · rw [touches.elsewhere h eq] at hr
      rw [touches.elsewhere k eq'] at hs
      exact apart h k r s ne hr hs v memberV w memberW

theorem Step.unique (step : a.Step b) (unique : a.UniqueNames) : b.UniqueNames := by
  cases step with
  | none => exact unique
  | declared name params unnamed =>
    exact Declares.unique (p := ⟨name, params, default⟩) (.new unnamed) unique
  | opened alive => exact unique_fill alive unique
  | emitted isOpen => exact unique_fill (openBody?_eq_some_iff.1 isOpen).2.1 unique
  | abandoned h =>
    apply unique.of_subset
    intro k s hs
    rw [routine?_abandoned] at hs
    split at hs
    · cases hs
    · exact ⟨s, hs, rfl⟩
  | @discarded h r alive =>
    apply unique.of_subset
    intro k s hs
    rw [routine?_close, routine?_set alive rfl] at hs
    split at hs
    · rename_i eq
      cases hs
      exact ⟨r, eq ▸ alive, rfl⟩
    · exact ⟨s, hs, rfl⟩
  | closed dead =>
    apply unique.congr
    intro k
    rw [routine?_close]

theorem insertion_close (open_at : (a.close h).insertion = some k) :
    a.insertion = some k ∧ k ≠ h := by
  unfold close at open_at
  split at open_at
  · cases open_at
  · rename_i ne
    refine ⟨open_at, ?_⟩
    rintro rfl
    exact ne open_at

theorem Step.inserts (step : a.Step b) (inserts : a.Inserts) : b.Inserts := by
  intro k open_at
  cases step with
  | none => exact inserts k open_at
  | declared name params =>
    obtain ⟨r, alive, has⟩ := inserts k open_at
    refine ⟨r, ?_, has⟩
    rw [routine?_declared, if_neg (Nat.ne_of_lt (lt_size_of_routine? alive)), alive]
  | opened alive =>
    cases open_at
    exact ⟨_, by rw [routine?_fill alive, if_pos rfl], rfl⟩
  | emitted isOpen =>
    cases open_at
    exact ⟨_, by rw [routine?_fill (openBody?_eq_some_iff.1 isOpen).2.1, if_pos rfl], rfl⟩
  | abandoned h =>
    obtain ⟨before, ne⟩ := insertion_close open_at
    obtain ⟨r, alive, has⟩ := inserts k before
    exact ⟨r, by rw [routine?_abandoned, if_neg ne, alive], has⟩
  | discarded alive =>
    obtain ⟨before, ne⟩ := insertion_close open_at
    obtain ⟨r, alive', has⟩ := inserts k before
    exact ⟨r, by rw [routine?_close, routine?_set alive rfl, if_neg ne, alive'], has⟩
  | closed dead =>
    obtain ⟨before, -⟩ := insertion_close open_at
    obtain ⟨r, alive, has⟩ := inserts k before
    exact ⟨r, by rw [routine?_close, alive], has⟩

/-! ### Slots are only added -/

@[simp] theorem slots_close (a : Assembly) (h : Handle) : (a.close h).slots = a.slots := by
  unfold close
  split <;> rfl

/-- The slots stay as many as they are, but for a declaration that succeeds. -/
theorem Step.size (step : a.Step b) :
    b.slots.size = a.slots.size ∨ b.slots.size = a.slots.size + 1 ∧
      ∃ name params, (target.declare name params).run a = (.ok a.slots.size, b) := by
  cases step with
  | none => exact Or.inl rfl
  | declared name params unnamed =>
    refine Or.inr ⟨Array.size_push _, name, params, ?_⟩
    change (declare name params).run a = _
    rw [run_declare, unnamed]
    rfl
  | opened => exact Or.inl Array.size_setIfInBounds
  | emitted => exact Or.inl Array.size_setIfInBounds
  | abandoned =>
    left
    rw [slots_close]
    exact Array.size_setIfInBounds
  | discarded =>
    left
    rw [slots_close]
    exact Array.size_setIfInBounds
  | closed =>
    left
    rw [slots_close]

/-- A slot that was given up stays empty. -/
theorem Step.gone (step : a.Step b) (lt : h < a.slots.size) (empty : a.routine? h = .none) :
    b.routine? h = .none := by
  have ne_of_alive : ∀ {k : Handle} {r : Routine}, a.routine? k = some r → h ≠ k := by
    rintro k r alive rfl
    rw [empty] at alive
    cases alive
  cases step with
  | none => exact empty
  | declared name params => rw [routine?_declared, if_neg (Nat.ne_of_lt lt), empty]
  | opened alive => rw [routine?_fill alive, if_neg (ne_of_alive alive), empty]
  | emitted isOpen =>
    have alive := (openBody?_eq_some_iff.1 isOpen).2.1
    rw [routine?_fill alive, if_neg (ne_of_alive alive), empty]
  | abandoned k =>
    rw [routine?_abandoned]
    split
    · rfl
    · exact empty
  | discarded alive =>
    rw [routine?_close, routine?_set alive rfl, if_neg (ne_of_alive alive), empty]
  | closed dead => rw [routine?_close, empty]

theorem Operates.size_le (operates : a.Operates b) : a.slots.size ≤ b.slots.size := by
  rcases (step_of_operates operates).size with same | ⟨grown, -⟩
  · exact Nat.le_of_eq same.symm
  · omega

theorem Later.size_le (later : a.Later b) : a.slots.size ≤ b.slots.size := by
  induction later with
  | refl => exact Nat.le_refl _
  | tail _ operates ih => exact Nat.le_trans ih operates.size_le

theorem Later.gone (later : a.Later b) (lt : h < a.slots.size) (empty : a.routine? h = none) :
    b.routine? h = none := by
  induction later with
  | refl => exact empty
  | tail before operates ih =>
    exact (step_of_operates operates).gone (Nat.lt_of_lt_of_le lt (Later.size_le before)) ih

/-! ### Handles -/

theorem declare_eq_ok {name : String} {params : List String}
    (ran : (target.declare name params).run a = (.ok h, b)) :
    h = a.slots.size ∧ b = a.declared name params := by
  change (declare name params).run a = _ at ran
  rw [run_declare] at ran
  split at ran
  · cases ran
  · cases ran
    exact ⟨rfl, rfl⟩

theorem Issued.operate (issued : a.Issued h) (operates : a.Operates b) : b.Issued h := by
  obtain ⟨before, name, params, after, built, ran, later⟩ := issued
  exact ⟨before, name, params, after, built, ran, later.tail operates⟩

theorem Issued.lt_size (issued : a.Issued h) : h < a.slots.size := by
  obtain ⟨before, name, params, after, -, ran, later⟩ := issued
  obtain ⟨rfl, rfl⟩ := declare_eq_ok ran
  have grown : (before.declared name params).slots.size = before.slots.size + 1 :=
    Array.size_push _
  exact Nat.lt_of_lt_of_le (grown ▸ Nat.lt_succ_self _) later.size_le

/-- The handles issued are the slots there are. -/
theorem Built.issued (built : a.Built) (lt : h < a.slots.size) : a.Issued h := by
  induction built with
  | empty moduleName depthLimit => exact absurd lt (Nat.not_lt_zero h)
  | @operate a b before operates ih =>
    rcases (step_of_operates operates).size with same | ⟨grown, name, params, ran⟩
    · exact (ih (same ▸ lt)).operate operates
    · by_cases last : h = a.slots.size
      · subst last
        exact ⟨a, name, params, b, before, ran, .refl⟩
      · have lt_or_eq := Nat.lt_succ_iff_lt_or_eq.1 (grown ▸ lt)
        exact (ih (lt_or_eq.resolve_right last)).operate operates

theorem Built.handles (built : a.Built) : a.Handles := by
  constructor
  · intro h r alive
    exact built.issued (lt_size_of_routine? alive)
  · intro name params h b ran issued
    obtain ⟨rfl, -⟩ := declare_eq_ok ran
    exact absurd issued.lt_size (Nat.lt_irrefl _)
  · intro h issued b later
    have empty : ((target.abandon h).run a).2.routine? h = none := by
      change ((a.setSlot h none).close h).routine? h = none
      rw [routine?_abandoned, if_pos rfl]
    have lt : h < ((target.abandon h).run a).2.slots.size :=
      Nat.lt_of_lt_of_le issued.lt_size (Operates.abandon h).size_le
    exact later.gone lt empty

/-! ### Reachable assemblies -/

theorem Built.kept (built : a.Built) : a.UniqueNames ∧ a.Apart ∧ a.Inserts := by
  induction built with
  | empty moduleName depthLimit =>
    refine ⟨?_, ?_, ?_⟩
    · intro h k r s hr
      cases hr
    · intro h k r s _ hr
      cases hr
    · intro h open_at
      cases open_at
  | operate before operates ih =>
    obtain ⟨unique, apart, inserts⟩ := ih
    have step := step_of_operates operates
    exact ⟨step.unique unique, step.apart before.ordered apart, step.inserts inserts⟩

theorem UniqueNames.lookup_eq_some_iff (unique : a.UniqueNames) (name : String) (h : Handle) :
    a.lookup name = some h ↔ name ≠ "" ∧ ∃ r, a.routine? h = some r ∧ r.name = name := by
  constructor
  · intro found
    exact ⟨(Assembly.lookup_eq_some_iff.1 found).1, routine?_of_lookup found⟩
  · rintro ⟨named, r, alive, rfl⟩
    exact unique.lookup alive named

theorem Apart.distinct (apart : a.Apart) (ordered : a.Ordered) :
    (a.live.flatMap fun entry => entry.2.defined.map (·.id)).Nodup := by
  rw [List.nodup_flatMap]
  constructor
  · rintro ⟨h, r⟩ member
    exact (ordered h r (mem_live.1 member)).ascending.imp Nat.ne_of_lt
  · refine List.Pairwise.imp_of_mem ?_ (pairwise_live a)
    rintro ⟨h, r⟩ ⟨k, s⟩ memberR memberS lt id inR inS
    obtain ⟨v, memberV, rfl⟩ := List.mem_map.1 inR
    obtain ⟨w, memberW, same⟩ := List.mem_map.1 inS
    exact apart h k r s (Nat.ne_of_lt lt) (mem_live.1 memberR) (mem_live.1 memberS) v memberV w
      memberW same.symm

/-- Whatever calls were made, the representation of the assembly is in order, and so are the
    handles that it issues. -/
theorem representation (built : a.Built) : a.Represents ∧ a.Handles := by
  obtain ⟨unique, apart, inserts⟩ := built.kept
  refine ⟨?_, built.handles⟩
  exact {
    unique := unique
    found := unique.lookup_eq_some_iff
    counted := fun h r alive => (built.ordered h r alive).count
    distinct := apart.distinct built.ordered
    below := fun h r alive => (built.ordered h r alive).below
    inserts := inserts }

/-- A routine is given up while its body is open and its name is declared again.  Then the
    old handle and one that was never issued are used. -/
def redeclared : Assembly :=
  List.foldl (fun a call => call a) (empty "redeclared" 8)
    [fun a => ((target.declare "f" ["x"]).run a).2,
     fun a => ((target.openBody 0).run a).2,
     fun a => ((target.literal 1).run a).2,
     fun a => ((target.abandon 0).run a).2,
     fun a => ((target.declare "f" ["x", "y"]).run a).2,
     fun a => ((target.openBody 0).run a).2,
     fun a => ((target.openBody 1).run a).2,
     fun a => ((target.arith .add ⟨2, .double⟩ ⟨3, .double⟩).run a).2,
     fun a => ((target.discardBody 5).run a).2]

/-- The name stands for the second routine, and the first handle for none, now and later. -/
theorem representation_redeclared :
    redeclared.Represents ∧ redeclared.lookup "f" = some 1 ∧
      ∀ b, ((target.abandon 0).run redeclared).2.Later b → b.routine? 0 = none := by
  have built : redeclared.Built :=
    .operate (.operate (.operate (.operate (.operate (.operate (.operate (.operate (.operate
      (.empty "redeclared" 8) (.declare _ _)) (.openBody _)) (.literal _)) (.abandon _))
        (.declare _ _)) (.openBody _)) (.openBody _)) (.arith _ _ _)) (.discardBody _)
  obtain ⟨represents, handles⟩ := representation built
  have size : redeclared.slots.size = 2 := by decide +kernel
  have issued : redeclared.Issued 0 := built.issued (size ▸ Nat.zero_lt_two)
  refine ⟨represents, ?_, handles.gone 0 issued⟩
  have second : (redeclared.routine? 1).map (·.name) = some "f" := by decide +kernel
  obtain ⟨r, alive, name⟩ := Option.map_eq_some_iff.1 second
  rw [represents.found]
  exact ⟨by decide, r, alive, name⟩

end Reckon.Assembly
