/-
  Assemblies up to the numbering of their values and routines.

  Two assemblies are the same but for numbering when their live routines correspond in order
  under an injective renaming of value numbers and handles (`RelatedBy`).  What is asked of
  them has corresponding answers.  A renaming that is needed for what is already there can be
  carried on to what comes next (`Renaming.onward`), for an assembly uses no numbers but those
  it has taken, and no handles but those of its slots.
-/
import Reckon.Proofs.Assembly.Representation
import Reckon.Proofs.Session.Validity

namespace Reckon

/-! ### Renamings -/

/-- New numbers for values and new handles for routines, no two of them the same. -/
structure Renaming where
  value : Nat → Nat
  handle : Handle → Handle
  value_injective : Function.Injective value
  handle_injective : Function.Injective handle

def Renaming.refl : Renaming where
  value := id
  handle := id
  value_injective := Function.injective_id
  handle_injective := Function.injective_id

def Value.renamed (ρ : Renaming) (v : Value) : Value := { v with id := ρ.value v.id }

def Instruction.renamed (ρ : Renaming) : Instruction → Instruction
  | .const dest x => .const (dest.renamed ρ) x
  | .arith op dest left right => .arith op (dest.renamed ρ) (left.renamed ρ) (right.renamed ρ)
  | .lessThan dest left right => .lessThan (dest.renamed ρ) (left.renamed ρ) (right.renamed ρ)
  | .widen dest operand => .widen (dest.renamed ρ) (operand.renamed ρ)
  | .call dest callee args =>
    .call (dest.renamed ρ) (ρ.handle callee) (args.map (·.renamed ρ))
  | .ret value => .ret (value.renamed ρ)

namespace Routine

/-- The routine with its values and calls renamed; its name and its parameters stay. -/
def renamed (ρ : Renaming) (r : Routine) : Routine :=
  { r with values := r.values.map (·.renamed ρ), body := r.body.map (·.map (·.renamed ρ)) }

variable {ρ : Renaming} {r : Routine}

@[simp] theorem values_renamed : (r.renamed ρ).values = r.values.map (·.renamed ρ) := rfl

end Routine

@[simp] theorem Value.renamed_refl (v : Value) : v.renamed .refl = v := rfl

@[simp] theorem Instruction.renamed_refl (i : Instruction) : i.renamed .refl = i := by
  cases i with
  | call dest callee args =>
    have kept : args.map (·.renamed .refl) = args := List.map_id' args
    rw [renamed, kept]
    rfl
  | _ => rfl

@[simp] theorem Routine.renamed_refl (r : Routine) : r.renamed .refl = r := by
  obtain ⟨name, params, values, body⟩ := r
  simp [renamed]

namespace Renaming

def entry (ρ : Renaming) (e : Handle × Routine) : Handle × Routine :=
  (ρ.handle e.1, e.2.renamed ρ)

/-! ### Carrying a renaming on -/

/-- `f` as far as it goes from below `old` to below `new`; the `count` numbers from `old` on go
    to those from `new` on, and all else far behind them. -/
def bridge (f : Nat → Nat) (old new count n : Nat) : Nat :=
  if n < old ∧ f n < new then f n
  else if old ≤ n ∧ n < old + count then new + (n - old)
  else new + (old + count) + n

variable {f : Nat → Nat} {old new count : Nat}

theorem bridge_injective (injective : Function.Injective f) :
    Function.Injective (bridge f old new count) := by
  intro m n same
  unfold bridge at same
  split at same
  · split at same
    · exact injective same
    · split at same
      · omega
      · omega
  · split at same
    · split at same
      · omega
      · split at same
        · omega
        · omega
    · split at same
      · omega
      · split at same
        · omega
        · omega

theorem bridge_old {n : Nat} (lt : n < old) (below : f n < new) :
    bridge f old new count n = f n := if_pos ⟨lt, below⟩

theorem bridge_new {n : Nat} (le : old ≤ n) (lt : n < old + count) :
    bridge f old new count n = new + (n - old) := by
  have notOld : ¬ (n < old ∧ f n < new) := fun both => Nat.not_lt.2 le both.1
  rw [bridge, if_neg notOld, if_pos ⟨le, lt⟩]

/-- The renaming carried on from what `a` and `b` have to what they come to have: `count` more
    values, and one more slot. -/
def onward (ρ : Renaming) (a b : Assembly) (count : Nat) : Renaming where
  value := bridge ρ.value a.nextValue b.nextValue count
  handle := bridge ρ.handle a.slots.size b.slots.size 1
  value_injective := bridge_injective ρ.value_injective
  handle_injective := bridge_injective ρ.handle_injective

def AgreesOn (σ ρ : Renaming) (a : Assembly) : Prop := ∀ e ∈ a.live, σ.entry e = ρ.entry e

end Renaming

/-! ### Related assemblies -/

namespace Assembly

variable {ρ : Renaming} {a b : Assembly} {h k : Handle} {r s : Routine} {name : String}

/-- The live routines of `b` are those of `a` under the renaming, in the same order, and calls
    may nest as deep. -/
structure RelatedBy (ρ : Renaming) (a b : Assembly) : Prop where
  live : b.live = a.live.map ρ.entry
  depthLimit : b.depthLimit = a.depthLimit

namespace RelatedBy

theorem mem_iff (related : RelatedBy ρ a b) :
    b.routine? k = some s ↔ ∃ h r, a.routine? h = some r ∧ ρ.handle h = k ∧ r.renamed ρ = s := by
  rw [← mem_live, related.live, List.mem_map]
  constructor
  · rintro ⟨⟨h, r⟩, member, eq⟩
    cases eq
    exact ⟨h, r, mem_live.1 member, rfl, rfl⟩
  · rintro ⟨h, r, alive, rfl, rfl⟩
    exact ⟨(h, r), mem_live.2 alive, rfl⟩

theorem routine? (related : RelatedBy ρ a b) (h : Handle) :
    b.routine? (ρ.handle h) = (a.routine? h).map (·.renamed ρ) := by
  apply Option.ext
  intro s
  rw [related.mem_iff, Option.map_eq_some_iff]
  constructor
  · rintro ⟨h', r, alive, same, rfl⟩
    rw [ρ.handle_injective same] at alive
    exact ⟨r, alive, rfl⟩
  · rintro ⟨r, alive, rfl⟩
    exact ⟨h, r, alive, rfl, rfl⟩

theorem arity (related : RelatedBy ρ a b) (h : Handle) : b.arity (ρ.handle h) = a.arity h := by
  unfold Assembly.arity
  rw [related.routine?]
  cases a.routine? h <;> rfl

theorem hasBody (related : RelatedBy ρ a b) (h : Handle) :
    b.hasBody (ρ.handle h) = a.hasBody h := by
  unfold Assembly.hasBody
  rw [related.routine?]
  cases a.routine? h with
  | none => rfl
  | some r => simp [Routine.renamed]

theorem lookup (related : RelatedBy ρ a b) (unique : b.UniqueNames)
    (name : String) : b.lookup name = (a.lookup name).map ρ.handle := by
  cases found : a.lookup name with
  | none =>
    rw [Option.map_none, lookup_eq_none_iff]
    refine (lookup_eq_none_iff.1 found).imp_right fun unnamed k s image => ?_
    obtain ⟨h, r, alive, -, rfl⟩ := related.mem_iff.1 image
    exact unnamed h r alive
  | some h =>
    obtain ⟨r, alive, rfl⟩ := routine?_of_lookup found
    have named := (lookup_eq_some_iff.1 found).1
    have image : b.routine? (ρ.handle h) = some (r.renamed ρ) := by
      rw [related.routine?, alive, Option.map_some]
    have there := unique.lookup image named
    exact there

theorem callees (related : RelatedBy ρ a b) (unique : b.UniqueNames)
    {count : Nat} : b.callees name count k ↔ ∃ h, a.callees name count h ∧ ρ.handle h = k := by
  unfold Assembly.callees
  rw [related.lookup unique, Option.map_eq_some_iff]
  constructor
  · rintro ⟨⟨h, found, rfl⟩, arity⟩
    rw [related.arity] at arity
    exact ⟨h, ⟨found, arity⟩, rfl⟩
  · rintro ⟨h, ⟨found, arity⟩, rfl⟩
    rw [related.arity]
    exact ⟨⟨h, found, rfl⟩, arity⟩

end RelatedBy

end Assembly

/-! ### Carrying on what is there -/

theorem Instruction.renamed_congr {ρ σ : Renaming} {i : Instruction}
    (dest : ∀ v, i.dest? = some v → ρ.value v.id = σ.value v.id)
    (operands : ∀ o ∈ i.operands, ρ.value o.1.id = σ.value o.1.id)
    (callee : ∀ v k args, i = .call v k args → ρ.handle k = σ.handle k) :
    i.renamed ρ = i.renamed σ := by
  have same : ∀ {v : Value}, ρ.value v.id = σ.value v.id → v.renamed ρ = v.renamed σ := by
    intro v eq
    rw [Value.renamed, Value.renamed, eq]
  cases i with
  | const v x => rw [renamed, renamed, same (dest v rfl)]
  | arith op v left right =>
    have ofLeft := operands (left, .double) List.mem_cons_self
    have ofRight := operands (right, .double) (List.mem_cons_of_mem _ List.mem_cons_self)
    rw [renamed, renamed, same (dest v rfl), same ofLeft, same ofRight]
  | lessThan v left right =>
    have ofLeft := operands (left, .double) List.mem_cons_self
    have ofRight := operands (right, .double) (List.mem_cons_of_mem _ List.mem_cons_self)
    rw [renamed, renamed, same (dest v rfl), same ofLeft, same ofRight]
  | widen v operand =>
    rw [renamed, renamed, same (dest v rfl), same (operands (operand, .bool) List.mem_cons_self)]
  | call v k args =>
    have ofArgs : ∀ arg ∈ args, arg.renamed ρ = arg.renamed σ := by
      intro arg member
      exact same (operands (arg, .double) (List.mem_map_of_mem member))
    rw [renamed, renamed, same (dest v rfl), callee v k args rfl, List.map_congr_left ofArgs]
  | ret v => rw [renamed, renamed, same (operands (v, .double) List.mem_cons_self)]

@[simp] theorem Instruction.dest?_renamed (ρ : Renaming) (i : Instruction) :
    (i.renamed ρ).dest? = i.dest?.map (·.renamed ρ) := by
  cases i <;> rfl

theorem Routine.defined_renamed (ρ : Renaming) (r : Routine) :
    (r.renamed ρ).defined = r.defined.map (·.renamed ρ) := by
  have results : ∀ is : List Instruction, (is.map (·.renamed ρ)).filterMap Instruction.dest? =
      (is.filterMap Instruction.dest?).map (·.renamed ρ) := by
    intro is
    rw [List.filterMap_map, List.map_filterMap]
    exact List.filterMap_congr fun i _ => i.dest?_renamed ρ
  cases has : r.body with
  | none => simp [defined, renamed, has]
  | some body => simp [defined, renamed, has, ← results]

namespace Assembly

variable {ρ : Renaming} {a b : Assembly} {h : Handle} {r : Routine} {count : Nat}

/-- In a body that passes the check every operand was defined. -/
theorem operands_defined {known : List Value} {is : List Instruction}
    (checked : a.checkBody known is = true) :
    ∀ i ∈ is, ∀ o ∈ i.operands, o.1 ∈ known ++ is.filterMap Instruction.dest? := by
  induction is generalizing known with
  | nil => exact fun i member => nomatch member
  | cons i rest ih =>
    simp only [checkBody, operandsFit, Bool.and_eq_true, List.all_eq_true,
      List.contains_iff_mem] at checked
    obtain ⟨⟨fit, -⟩, checkedRest⟩ := checked
    intro j member o operand
    rcases List.mem_cons.1 member with rfl | later
    · exact List.mem_append_left _ (fit o operand).1
    cases defines : i.dest? with
    | none =>
      rw [defines] at checkedRest
      rw [List.isEmpty_iff.1 checkedRest] at later
      exact nomatch later
    | some dest =>
      rw [defines] at checkedRest
      have inRest := ih checkedRest j later o operand
      rw [List.filterMap_cons_some defines]
      rcases List.mem_append.1 inRest with known | after
      · rcases List.mem_cons.1 known with rfl | before
        · exact List.mem_append_right _ List.mem_cons_self
        · exact List.mem_append_left _ before
      · exact List.mem_append_right _ (List.mem_cons_of_mem _ after)

/-- What a consistent assembly mentions are its live routines and the values they define, so
    renamings that agree on those agree on all of it. -/
theorem Consistent.agreesOn {σ : Renaming} (consistent : a.Consistent)
    (handle : ∀ h r, a.routine? h = some r → σ.handle h = ρ.handle h)
    (value : ∀ h r, a.routine? h = some r → ∀ v ∈ r.defined, σ.value v.id = ρ.value v.id) :
    σ.AgreesOn ρ a := by
  rintro ⟨h, r⟩ member
  have alive := mem_live.1 member
  have checked := consistent.checked h r alive
  have values : r.values.map (·.renamed σ) = r.values.map (·.renamed ρ) := by
    refine List.map_congr_left fun v param => ?_
    have same := value h r alive v (List.mem_append_left _ param)
    rw [Value.renamed, Value.renamed, same]
  have body : r.body.map (·.map (·.renamed σ)) = r.body.map (·.map (·.renamed ρ)) := by
    cases has : r.body with
    | none => rfl
    | some code =>
      simp only [check, alive, has] at checked
      have defined : r.defined = r.values ++ code.toList.filterMap Instruction.dest? := by
        simp [Routine.defined, has]
      have same : ∀ i ∈ code.toList, i.renamed σ = i.renamed ρ := by
        intro i among
        apply Instruction.renamed_congr
        · intro v defines
          apply value h r alive v
          rw [defined]
          exact List.mem_append_right _ (List.mem_filterMap.2 ⟨i, among, defines⟩)
        · intro o operand
          apply value h r alive o.1
          rw [defined]
          exact operands_defined checked i among o operand
        · rintro v k args rfl
          have fits := calleeFits_of_checkBody checked _ among
          cases found : a.routine? k with
          | none => simp [calleeFits, found] at fits
          | some s => exact handle k s found
      have lists := List.map_congr_left same
      simpa [← Array.toList_inj] using lists
  simp only [Renaming.entry, Routine.renamed, handle h r alive, values, body]

/-- A renaming that is carried on is what it was on all that is there. -/
theorem RelatedBy.onward_agreesOn (related : RelatedBy ρ a b) (consistent : a.Consistent)
    (ofA : a.Ordered) (ofB : b.Ordered) (count : Nat) : (ρ.onward a b count).AgreesOn ρ a := by
  have image : ∀ h r, a.routine? h = some r → b.routine? (ρ.handle h) = some (r.renamed ρ) := by
    intro h r alive
    rw [related.routine?, alive, Option.map_some]
  apply consistent.agreesOn
  · intro h r alive
    exact Renaming.bridge_old (lt_size_of_routine? alive) (lt_size_of_routine? (image h r alive))
  · intro h r alive v member
    have there : v.renamed ρ ∈ (r.renamed ρ).defined := by
      rw [Routine.defined_renamed]
      exact List.mem_map_of_mem member
    exact Renaming.bridge_old ((ofA h r alive).below v member)
      ((ofB _ _ (image h r alive)).below _ there)

/-! ### Declaring and writing -/

/-- The next numbers of `a`, as many as `count`, go to the next ones of `b`, and the next slot
    to the next slot. -/
structure Continues (ρ : Renaming) (a b : Assembly) (count : Nat) : Prop where
  value : ∀ n, a.nextValue ≤ n → n < a.nextValue + count →
    ρ.value n = b.nextValue + (n - a.nextValue)
  handle : ρ.handle a.slots.size = b.slots.size

theorem continues_onward (ρ : Renaming) (a b : Assembly) (count : Nat) :
    Continues (ρ.onward a b count) a b count where
  value n le lt := Renaming.bridge_new le lt
  handle := by
    have same : Renaming.bridge ρ.handle a.slots.size b.slots.size 1 a.slots.size =
        b.slots.size + (a.slots.size - a.slots.size) :=
      Renaming.bridge_new (Nat.le_refl _) (Nat.lt_succ_self _)
    rwa [Nat.sub_self] at same

theorem newRoutine_renamed (continues : Continues ρ a b count) (name : String)
    {params : List String} (enough : params.length ≤ count) :
    (a.newRoutine name params).renamed ρ = b.newRoutine name params := by
  have values : (a.newRoutine name params).values.map (·.renamed ρ) =
      (b.newRoutine name params).values := by
    simp only [newRoutine, List.map_map, List.range'_eq_map_range]
    refine List.map_congr_left fun i inRange => ?_
    have lt := List.mem_range.1 inRange
    have new := continues.value (a.nextValue + i) (Nat.le_add_right _ _) (by omega)
    rw [Nat.add_sub_cancel_left] at new
    exact congrArg (Value.mk · .double) new
  simp only [Routine.renamed, values]
  rfl

theorem Declares.eq {p : Prototype} {k : Handle} {c : Assembly} (declares : a.Declares p h b)
    (declares' : a.Declares p k c) : h = k ∧ b = c := by
  cases declares with
  | found named =>
    cases declares' with
    | found named' =>
      rw [named] at named'
      exact ⟨Option.some.inj named', rfl⟩
    | new unnamed =>
      rw [named] at unnamed
      cases unnamed
  | new unnamed =>
    cases declares' with
    | found named =>
      rw [named] at unnamed
      cases unnamed
    | new => exact ⟨rfl, rfl⟩

/-- What is declared in both is related again, and as many numbers are taken. -/
theorem RelatedBy.declares {p : Prototype} {a' : Assembly} (related : RelatedBy ρ a b)
    (unique : b.UniqueNames) (continues : Continues ρ a b count) (enough : p.arity ≤ count)
    (declares : a.Declares p h a') :
    ∃ b', b.Declares p (ρ.handle h) b' ∧ RelatedBy ρ a' b' ∧
      b'.nextValue = b.nextValue + (a'.nextValue - a.nextValue) := by
  cases declares with
  | found named arity =>
    refine ⟨b, .found ?_ ?_, related, by rw [Nat.sub_self, Nat.add_zero]⟩
    · rw [related.lookup unique, named, Option.map_some]
    · rw [related.arity, arity]
  | new unnamed =>
    have unnamed' : b.lookup p.name = none := by
      rw [related.lookup unique, unnamed, Option.map_none]
    refine ⟨b.declared p.name p.params, ?_, ⟨?_, related.depthLimit⟩, ?_⟩
    · rw [continues.handle]
      exact .new unnamed'
    · rw [live_declared, live_declared, List.map_append, related.live, List.map_singleton,
        Renaming.entry, newRoutine_renamed continues p.name enough, continues.handle]
    · simp only [declared, Nat.add_sub_cancel_left]

theorem live_fill_eq {code : List Instruction} {next : Nat} (alive : a.routine? h = some r) :
    (a.fill h r code next).live =
      a.live.map fun e => if e.1 = h then (h, { r with body := some code.toArray }) else e := by
  obtain ⟨front, back, before, after⟩ := live_fill alive
  have ordered := pairwise_live a
  rw [before, List.pairwise_append] at ordered
  obtain ⟨-, ofBack, ofFront⟩ := ordered
  have kept : ∀ l : List (Handle × Routine), (∀ e ∈ l, e.1 ≠ h) →
      (l.map fun e => if e.1 = h then (h, { r with body := some code.toArray }) else e) = l := by
    intro l others
    refine (List.map_congr_left fun e member => ?_).trans (List.map_id' l)
    rw [if_neg (others e member)]
  have keptFront := kept front fun e member =>
    Nat.ne_of_lt (ofFront e member (h, r) List.mem_cons_self)
  have keptBack := kept back fun e member =>
    Nat.ne_of_gt ((List.pairwise_cons.1 ofBack).1 e member)
  rw [after, before, List.map_append, List.map_cons, keptFront, keptBack, if_pos rfl]

/-- What is written in both is related again. -/
theorem RelatedBy.fill {code : List Instruction} (related : RelatedBy ρ a b)
    (alive : a.routine? h = some r) (next next' : Nat) :
    RelatedBy ρ (a.fill h r code next)
      (b.fill (ρ.handle h) (r.renamed ρ) (code.map (·.renamed ρ)) next') := by
  have image : b.routine? (ρ.handle h) = some (r.renamed ρ) := by
    rw [related.routine?, alive, Option.map_some]
  refine ⟨?_, related.depthLimit⟩
  rw [live_fill_eq image, live_fill_eq alive, related.live, List.map_map, List.map_map]
  refine List.map_congr_left fun e member => ?_
  by_cases here : e.1 = h
  · simp [Renaming.entry, here, Routine.renamed]
  · have other : ρ.handle e.1 ≠ ρ.handle h := fun same => here (ρ.handle_injective same)
    simp [Renaming.entry, here, other]

end Assembly

end Reckon
