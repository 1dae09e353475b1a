/-
  Runs under a renaming.

  Registers are kept by the numbers of values, and calls go by handles.  So a routine runs in
  one of two assemblies as it runs in the other, if every routine that its calls lead to is the
  same in both but for numbers: it comes to the same value, writes the same text, and fails for
  the same reason, but for the number of a register that has no value.  What ends a run in the
  first assembly may be left out of account (`Mirrors`), so that the second may allow deeper
  calls.  Instructions, bodies and calls are taken one after the other.  No register without a
  value is read where the live routines check, and so evaluation gives the same on both sides
  (`evaluate_same`).
-/
import Reckon.Proofs.Assembly.Renaming
import Reckon.Proofs.Assembly.Soundness

namespace Reckon

variable {α β : Type} {ρ : Renaming}

def Fault.renamed (ρ : Renaming) : Fault → Fault
  | .unwritten id => .unwritten (ρ.value id)
  | fault => fault

theorem Fault.renamed_refl (fault : Fault) : fault.renamed .refl = fault := by
  cases fault <;> rfl

/-! ### Registers -/

namespace Registers

def renamed (ρ : Renaming) (regs : Registers) : Registers :=
  regs.map fun entry => (ρ.value entry.1, entry.2)

theorem read_renamed (regs : Registers) (v : Value) :
    (regs.renamed ρ).read (v.renamed ρ) = (regs.read v).mapError (Fault.renamed ρ) := by
  have lookup : (regs.renamed ρ).lookup (ρ.value v.id) = regs.lookup v.id := by
    induction regs with
    | nil => rfl
    | cons entry rest ih =>
      have same : (ρ.value v.id == ρ.value entry.1) = (v.id == entry.1) := by
        rw [Bool.eq_iff_iff, beq_iff_eq, beq_iff_eq]
        exact ρ.value_injective.eq_iff
      obtain ⟨id, x⟩ := entry
      rw [List.lookup_cons, ← ih, ← same]
      rfl
  unfold read
  rw [Value.renamed, lookup]
  cases regs.lookup v.id <;> rfl

theorem readAll_renamed (regs : Registers) (vs : List Value) :
    (regs.renamed ρ).readAll (vs.map (·.renamed ρ)) =
      (regs.readAll vs).mapError (Fault.renamed ρ) := by
  induction vs with
  | nil => rfl
  | cons v vs ih =>
    rw [List.map_cons, readAll, readAll, read_renamed, ih]
    cases regs.read v with
    | error fault => rfl
    | ok x => cases regs.readAll vs <;> rfl

theorem ofArguments_renamed (values : List Value) (args : List Float) :
    (ofArguments values args).renamed ρ = ofArguments (values.map (·.renamed ρ)) args := by
  have numbers : (values.map (·.renamed ρ)).map (·.id) = (values.map (·.id)).map ρ.value := by
    rw [List.map_map, List.map_map]
    rfl
  have pairs : ((values.map (·.id)).map ρ.value).zip args =
      ((values.map (·.id)).zip args).map (Prod.map ρ.value id) := List.zip_map_left
  unfold renamed ofArguments
  rw [numbers, pairs, List.map_reverse]
  rfl

end Registers

/-! ### Who calls whom -/

def Instruction.callee? : Instruction → Option Handle
  | .call _ callee _ => some callee
  | _ => none

namespace Assembly

variable {a : Assembly} {h k : Handle}

def Calls (a : Assembly) (h k : Handle) : Prop :=
  ∃ r body dest args, a.routine? h = some r ∧ r.body = some body ∧
    Instruction.call dest k args ∈ body.toList

def calledBy (a : Assembly) (h : Handle) : List Handle :=
  match (a.routine? h).bind (·.body) with
  | some body => body.toList.filterMap Instruction.callee?
  | none => []

theorem mem_calledBy : k ∈ a.calledBy h ↔ a.Calls h k := by
  unfold calledBy
  cases has : (a.routine? h).bind (·.body) with
  | none =>
    refine iff_of_false List.not_mem_nil ?_
    rintro ⟨r, body, dest, args, alive, bodied, -⟩
    rw [alive, Option.bind_some, bodied] at has
    cases has
  | some body =>
    obtain ⟨r, alive, bodied⟩ := Option.bind_eq_some_iff.1 has
    simp only [List.mem_filterMap]
    constructor
    · rintro ⟨i, member, callee⟩
      cases i with
      | call dest callee' args =>
        cases callee
        exact ⟨r, body, dest, args, alive, bodied, member⟩
      | _ => cases callee
    · rintro ⟨s, body', dest, args, alive', bodied', member⟩
      rw [alive] at alive'
      cases alive'
      rw [bodied] at bodied'
      cases bodied'
      exact ⟨_, member, rfl⟩

def Leads (a : Assembly) : Handle → Handle → Prop := Relation.ReflTransGen a.Calls

theorem Leads.of_closed {P : Handle → Prop} (closed : ∀ k l, P k → a.Calls k l → P l)
    (leads : a.Leads h k) (first : P h) : P k := by
  induction leads with
  | refl => exact first
  | tail _ calls ih => exact closed _ _ ih calls

end Assembly

/-! ### Runs -/

/-- Whatever was written before, `q` writes what `p` writes, and has its value or its fault,
    unless a fault of `cut` ends `p`. -/
def Run.Mirrors (cut : Fault → Prop) (ρ : Renaming) (p q : Run α) : Prop :=
  ∀ written, (∃ fault, cut fault ∧ p.run written = .error fault) ∨
    q.run written = (p.run written).mapError (Fault.renamed ρ)

variable {cut : Fault → Prop}

namespace Run

theorem mirrors_pure (x : α) : Mirrors cut ρ (pure x) (pure x) := fun _ => .inr rfl

theorem mirrors_throw (fault : Fault) :
    Mirrors cut ρ (throw fault : Run α) (throw (fault.renamed ρ)) := fun _ => .inr rfl

theorem mirrors_lift (result : Except Fault α) :
    Mirrors cut ρ (liftM result) (liftM (result.mapError (Fault.renamed ρ)) : Run α) := by
  intro written
  cases result <;> exact .inr rfl

theorem Mirrors.bind {p q : Run α} {f g : α → Run β} (first : Mirrors cut ρ p q)
    (second : ∀ x, Mirrors cut ρ (f x) (g x)) : Mirrors cut ρ (p >>= f) (q >>= g) := by
  intro written
  rw [StateT.run_bind, StateT.run_bind]
  rcases first written with ⟨fault, cuts, ends⟩ | same
  · exact .inl ⟨fault, cuts, by rw [ends]; rfl⟩
  · rw [same]
    cases p.run written with
    | error fault => exact .inr rfl
    | ok done => exact second done.1 done.2

end Run

open Run

theorem Assembly.mirrors_callHost (name : String) (args : List Float) :
    Mirrors cut ρ (callHost name args) (callHost name args) := by
  intro written
  unfold callHost
  cases Host.call name args <;> exact .inr rfl

namespace Assembly

section Bodies

variable {call call' : Handle → List Float → Run Float}

/-- One instruction: it reads the same registers under their new numbers. -/
theorem execute_renamed (regs : Registers) (i : Instruction)
    (calls : ∀ dest callee args, i = .call dest callee args →
      ∀ xs, Mirrors cut ρ (call callee xs) (call' (ρ.handle callee) xs)) :
    Mirrors cut ρ (execute call regs i) (execute call' (regs.renamed ρ) (i.renamed ρ)) := by
  cases i with
  | const dest value => exact mirrors_pure value
  | arith op dest left right =>
    simp only [Instruction.renamed, execute, Registers.read_renamed]
    refine (mirrors_lift _).bind fun x => (mirrors_lift _).bind fun y => ?_
    exact mirrors_pure (op.apply x y)
  | lessThan dest left right =>
    simp only [Instruction.renamed, execute, Registers.read_renamed]
    refine (mirrors_lift _).bind fun x => (mirrors_lift _).bind fun y => ?_
    exact mirrors_pure (lessThanValue x y)
  | widen dest operand =>
    simp only [Instruction.renamed, execute, Registers.read_renamed]
    exact mirrors_lift _
  | call dest callee args =>
    simp only [Instruction.renamed, execute, Registers.readAll_renamed]
    exact (mirrors_lift _).bind (calls dest callee args rfl)
  | ret value =>
    simp only [Instruction.renamed, execute, Registers.read_renamed]
    exact mirrors_lift _

/-- A whole body, instruction by instruction. -/
theorem runBody_renamed (name : String) (is : List Instruction)
    (calls : ∀ dest callee args, .call dest callee args ∈ is →
      ∀ xs, Mirrors cut ρ (call callee xs) (call' (ρ.handle callee) xs)) : ∀ regs : Registers,
      Mirrors cut ρ (runBody call name regs is)
        (runBody call' name (regs.renamed ρ) (is.map (·.renamed ρ))) := by
  induction is with
  | nil => exact fun _ => mirrors_throw (.noReturn name)
  | cons i rest ih =>
    intro regs
    rw [List.map_cons, runBody, runBody]
    have here : Mirrors cut ρ (execute call regs i) (execute call' (regs.renamed ρ) (i.renamed ρ)) :=
      execute_renamed regs i fun dest callee args eq =>
        calls dest callee args (eq ▸ List.mem_cons_self)
    refine here.bind fun x => ?_
    rw [Instruction.dest?_renamed]
    cases i.dest? with
    | none => exact mirrors_pure x
    | some dest =>
      exact ih (fun dest callee args member => calls dest callee args (.tail i member))
        (regs.write dest x)

end Bodies

/-! ### Calls -/

variable {a b : Assembly} {h : Handle}

/-- Calls may nest as deep in `b`, where `depth'` more may, as in `a`, where `depth` more may;
    or they may nest deeper, and calls that nest too deep in `a` do not count. -/
def AsDeep (cut : Fault → Prop) (a b : Assembly) (depth depth' : Nat) : Prop :=
  depth = depth' ∧ b.depthLimit = a.depthLimit ∨ depth ≤ depth' ∧ cut (.tooDeep a.depthLimit)

section Calls

variable (same : ∀ k, a.Leads h k →
  b.routine? (ρ.handle k) = (a.routine? k).map (·.renamed ρ))
include same

/-- A call of a routine that `h` leads to, where those routines are the same under the
    renaming. -/
theorem callRoutine_renamed (depth : Nat) : ∀ depth', AsDeep cut a b depth depth' →
    ∀ k args, a.Leads h k →
      Mirrors cut ρ (a.callRoutine depth k args) (b.callRoutine depth' (ρ.handle k) args) := by
  induction depth with
  | zero =>
    rintro depth' (⟨rfl, limit⟩ | ⟨-, cuts⟩) k args leads
    · rw [callRoutine, callRoutine, limit]
      exact mirrors_throw (.tooDeep a.depthLimit)
    · exact fun written => .inl ⟨_, cuts, rfl⟩
  | succ depth ih =>
    intro depth' deep k args leads
    obtain ⟨left, rfl, deeper⟩ : ∃ left, depth' = left + 1 ∧ AsDeep cut a b depth left := by
      rcases deep with ⟨rfl, limit⟩ | ⟨le, cuts⟩
      · exact ⟨depth, rfl, .inl ⟨rfl, limit⟩⟩
      · exact ⟨depth' - 1, by omega, .inr ⟨by omega, cuts⟩⟩
    rw [callRoutine, callRoutine, same k leads]
    cases alive : a.routine? k with
    | none => exact mirrors_throw .stale
    | some r =>
      cases has : r.body with
      | none =>
        simp only [Option.map_some, Routine.renamed, has, Option.map_none]
        exact mirrors_callHost r.name args
      | some body =>
        simp only [Option.map_some, Routine.renamed, has, Array.toList_map,
          ← Registers.ofArguments_renamed]
        refine runBody_renamed r.name body.toList (fun dest callee args member xs => ?_) _
        exact ih left deeper callee xs (leads.tail ⟨r, body, dest, args, alive, has, member⟩)

/-- An evaluation of `h`, where the routines that it leads to are the same under the
    renaming. -/
theorem evaluate_renamed (deep : AsDeep cut a b a.depthLimit b.depthLimit) :
    (∃ fault, cut fault ∧ a.evaluate h = .error fault) ∨
      b.evaluate (ρ.handle h) = (a.evaluate h).mapError (Fault.renamed ρ) := by
  unfold Assembly.evaluate
  rw [same h .refl]
  cases a.routine? h with
  | none => exact .inr rfl
  | some r =>
    by_cases closed : r.params.isEmpty = true
    · have closed' : (r.renamed ρ).params.isEmpty = true := closed
      simp only [Option.map_some, if_pos closed, if_pos closed']
      rcases callRoutine_renamed same _ _ deep h [] .refl "" with ⟨fault, cuts, ends⟩ | ran
      · exact .inl ⟨fault, cuts, by rw [ends]; rfl⟩
      · rw [ran]
        cases (a.callRoutine a.depthLimit h []).run "" <;> exact .inr rfl
    · have closed' : ¬ (r.renamed ρ).params.isEmpty = true := closed
      simp only [Option.map_some, if_neg closed, if_neg closed']
      exact .inr rfl

end Calls

/-- Where all live routines check, an evaluation reads no register that has no value. -/
theorem evaluate_ne_unwritten (ordered : a.Ordered) (checked : a.Checked) (h : Handle) (id : Nat) :
    a.evaluate h ≠ .error (.unwritten id) := by
  intro fails
  unfold Assembly.evaluate at fails
  cases alive : a.routine? h with
  | none => simp [alive] at fails
  | some r =>
    by_cases closed : r.params = []
    · simp only [alive, closed, List.isEmpty_nil, if_true] at fails
      cases ran : (a.callRoutine a.depthLimit h []).run "" with
      | error fault =>
        rw [ran] at fails
        cases fails
        have refuses := call_refuses ordered checked a.depthLimit h [] "" _
          (.start alive closed) ran
        cases refuses
      | ok result =>
        rw [ran] at fails
        cases fails
    · simp [alive, closed] at fails

theorem Consistent.isChecked (consistent : a.Consistent) : a.Checked := by
  intro h alive
  obtain ⟨r, hr⟩ := Option.isSome_iff_exists.1 alive
  exact consistent.checked h r hr

/-- Evaluating a routine gives the same, where the routines that it leads to are the same but
    for numbers. -/
theorem evaluate_same (same : ∀ k, a.Leads h k →
      b.routine? (ρ.handle k) = (a.routine? k).map (·.renamed ρ))
    (limit : b.depthLimit = a.depthLimit) (ordered : a.Ordered) (consistent : a.Consistent) :
    b.evaluate (ρ.handle h) = a.evaluate h := by
  have deep : AsDeep (fun _ => False) a b a.depthLimit b.depthLimit := .inl ⟨limit.symm, limit⟩
  obtain ⟨-, ⟨⟩, -⟩ | eq := evaluate_renamed same deep
  rw [eq]
  cases result : a.evaluate h with
  | ok evaluation => rfl
  | error fault =>
    cases fault with
    | unwritten id =>
      exact absurd result (evaluate_ne_unwritten ordered consistent.isChecked h id)
    | _ => rfl

/-- Evaluating a routine gives the same in related assemblies. -/
theorem RelatedBy.evaluate (related : RelatedBy ρ a b) (ordered : a.Ordered)
    (consistent : a.Consistent) (h : Handle) : b.evaluate (ρ.handle h) = a.evaluate h :=
  evaluate_same (fun k _ => related.routine? k) related.depthLimit ordered consistent

end Assembly

end Reckon
