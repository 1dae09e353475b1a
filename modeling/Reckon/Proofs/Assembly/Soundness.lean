/-
  What checking promises to running.

  The checker goes by values, numbers and types together, where a run keeps its registers
  by number alone.  In an assembly that can be built the two agree, however its operands
  came about: of a routine that checks, the registers that have been written at any moment
  are those of the values the checker knows there, and a register of a truth value holds
  zero or one (`Underway`).  `Reaches` is what an evaluation goes through, nested calls
  included; one step of it keeps the invariant, and so all of it does
  (`Reaches.underway`).  An evaluation can therefore fail in four ways only (`Refuses`).
-/
import Reckon.Proofs.Assembly.Built
import Reckon.Proofs.Meaning.Execution

namespace Reckon

/-- The values of a routine that are truth values: those of that type, and the doubles
    made of them. -/
def Routine.Truth (r : Routine) (v : Value) : Prop :=
  v.type = .bool ∨ ∃ operand, Instruction.widen v operand ∈ (r.body.getD #[]).toList

theorem lessThanValue_truth (x y : Float) : lessThanValue x y = 0 ∨ lessThanValue x y = 1 := by
  unfold lessThanValue
  split
  · exact Or.inl rfl
  · exact Or.inr rfl

/-! ### Values by their numbers -/

namespace Routine.Ordered

variable {r : Routine} {next : Nat}

theorem value_unique (ordered : r.Ordered next) {v w : Value} (hv : v ∈ r.defined)
    (hw : w ∈ r.defined) (same : v.id = w.id) : v = w := by
  have ascending := List.pairwise_map.1 ordered.ascending
  have apart : r.defined.Pairwise fun v w => v.id = w.id → v = w :=
    ascending.imp fun lt same => absurd same (Nat.ne_of_lt lt)
  have apart' : r.defined.Pairwise (flip fun v w => v.id = w.id → v = w) :=
    ascending.imp fun lt same => absurd same (Nat.ne_of_gt lt)
  exact List.Pairwise.forall_of_forall_of_flip (fun _ _ _ => rfl) apart apart' hv hw same

/-- Of a body cut in two, what was defined before an instruction is numbered below what
    the instruction defines. -/
theorem lt_dest (ordered : r.Ordered next) {front back : List Instruction} {i : Instruction}
    {dest : Value} (cut : (r.body.getD #[]).toList = front ++ i :: back)
    (defines : i.dest? = some dest) :
    ∀ v ∈ r.values ++ front.filterMap Instruction.dest?, v.id < dest.id := by
  intro v member
  have ascending := ordered.ascending
  rw [defined, cut, List.filterMap_append, List.filterMap_cons_some defines, ← List.append_assoc,
    List.map_append, List.pairwise_append] at ascending
  exact ascending.2.2 v.id (List.mem_map_of_mem member) dest.id List.mem_cons_self

theorem instruction_unique (ordered : r.Ordered next) {i j : Instruction} {v : Value}
    (hi : i ∈ (r.body.getD #[]).toList) (hj : j ∈ (r.body.getD #[]).toList)
    (definesI : i.dest? = some v) (definesJ : j.dest? = some v) : i = j := by
  have ascending := List.pairwise_map.1 ordered.ascending
  rw [defined, List.pairwise_append, List.pairwise_filterMap] at ascending
  let Unique := fun i j : Instruction => i.dest? = some v → j.dest? = some v → i = j
  have apart : (r.body.getD #[]).toList.Pairwise Unique :=
    ascending.2.1.imp fun lt definesI definesJ =>
      absurd (lt v definesI v definesJ) (Nat.lt_irrefl _)
  have apart' : (r.body.getD #[]).toList.Pairwise (flip Unique) :=
    ascending.2.1.imp fun lt definesJ definesI =>
      absurd (lt v definesI v definesJ) (Nat.lt_irrefl _)
  exact List.Pairwise.forall_of_forall_of_flip (R := Unique) (fun _ _ _ _ => rfl) apart apart' hi hj
    definesI definesJ

theorem not_truth (ordered : r.Ordered next) {v : Value} (member : v ∈ r.values) :
    ¬ r.Truth v := by
  rintro (isBool | ⟨operand, widened⟩)
  · have isDouble := ordered.doubles v member
    rw [isBool] at isDouble
    cases isDouble
  · have ascending := ordered.ascending
    rw [defined, List.map_append, List.pairwise_append] at ascending
    have defined : v ∈ (r.body.getD #[]).toList.filterMap Instruction.dest? :=
      List.mem_filterMap.2 ⟨_, widened, rfl⟩
    exact Nat.lt_irrefl _
      (ascending.2.2 v.id (List.mem_map_of_mem member) v.id (List.mem_map_of_mem defined))

end Routine.Ordered

/-! ### Registers -/

namespace Registers

variable {regs : Registers} {v dest : Value} {x : Float}

theorem read_write_of_ne (ne : v.id ≠ dest.id) : (regs.write dest x).read v = regs.read v := by
  simp [read, write, List.lookup_cons, beq_false_of_ne ne]

theorem readAll_ok {vs : List Value} (all : ∀ v ∈ vs, ∃ x, regs.read v = .ok x) :
    ∃ xs, regs.readAll vs = .ok xs ∧ xs.length = vs.length := by
  induction vs with
  | nil => exact ⟨[], rfl, rfl⟩
  | cons v vs ih =>
    obtain ⟨x, hx⟩ := all v List.mem_cons_self
    obtain ⟨xs, hxs, length⟩ := ih fun w member => all w (List.mem_cons_of_mem v member)
    refine ⟨x :: xs, ?_, by simp [length]⟩
    rw [readAll, hx, hxs]
    rfl

theorem read_ofArguments {values : List Value} {args : List Float}
    (count : values.length = args.length) (v : Value) :
    (∃ x, (ofArguments values args).read v = .ok x) ↔ v.id ∈ values.map (·.id) := by
  have enough : (values.map (·.id)).length ≤ args.length := by
    rw [List.length_map]
    exact Nat.le_of_eq count
  have missing : ((values.map (·.id)).zip args).reverse.lookup v.id = none ↔
    v.id ∉ values.map (·.id) := lookup_zip_reverse_eq_none enough
  rw [read, ofArguments]
  cases found : ((values.map (·.id)).zip args).reverse.lookup v.id with
  | none => simpa [found] using missing.1 found
  | some x =>
    have there : v.id ∈ values.map (·.id) := by
      apply Decidable.of_not_not
      intro absent
      rw [missing.2 absent] at found
      cases found
    exact ⟨fun _ => there, fun _ => ⟨x, rfl⟩⟩

end Registers

/-- Whether the host has a function depends on its name and the number of arguments. -/
theorem Host.call_eq_none {name : String} {args args' : List Float}
    (missing : Host.call name args = none) (same : args'.length = args.length) :
    Host.call name args' = none := by
  match args, args', same with
  | [], [], _ => exact missing
  | [x], [x'], _ =>
    simp only [Host.call] at missing ⊢
    split at missing
    all_goals first | contradiction | rfl
  | [x, y], [x', y'], _ =>
    simp only [Host.call] at missing ⊢
    split at missing
    · cases missing
    · rename_i other
      rw [if_neg other]
  | _ :: _ :: _ :: _, _ :: _ :: _ :: _, _ => rfl

namespace Assembly

variable {a : Assembly} {h k : Handle} {r : Routine} {depth : Nat} {regs : Registers}
variable {rest : List Instruction} {written : String}

/-! ### What an evaluation goes through -/

/-- What goes on at a moment of a run, where `depth` more calls may nest: a routine is
    called, or `rest` of its body is about to be run. -/
inductive Activity where
  | call (depth : Nat) (callee : Handle) (args : List Float)
  | body (depth : Nat) (h : Handle) (regs : Registers) (rest : List Instruction)

/-- What an evaluation goes through, with the text that is written by then. -/
inductive Reaches (a : Assembly) (h : Handle) : Activity → String → Prop where
  | start {r : Routine} (alive : a.routine? h = some r) (closed : r.params = []) :
    Reaches a h (.call a.depthLimit h []) ""
  | enter {depth : Nat} {k : Handle} {args : List Float} {written : String} {r : Routine}
    {body : Array Instruction} (called : Reaches a h (.call (depth + 1) k args) written)
    (alive : a.routine? k = some r) (has : r.body = some body) :
    Reaches a h (.body depth k (.ofArguments r.values args) body.toList) written
  | next {depth : Nat} {k : Handle} {regs : Registers} {i : Instruction}
    {rest : List Instruction} {written written' : String} {dest : Value} {x : Float}
    (now : Reaches a h (.body depth k regs (i :: rest)) written) (defines : i.dest? = some dest)
    (gives : (execute (a.callRoutine depth) regs i).run written = .ok (x, written')) :
    Reaches a h (.body depth k (regs.write dest x) rest) written'
  | call {depth : Nat} {k callee : Handle} {regs : Registers} {dest : Value}
    {args : List Value} {xs : List Float} {rest : List Instruction} {written : String}
    (now : Reaches a h (.body depth k regs (.call dest callee args :: rest)) written)
    (read : regs.readAll args = .ok xs) :
    Reaches a h (.call depth callee xs) written

/-- Why an evaluation may fail: there is no such routine, it takes parameters, calls nest
    deeper than the limit, or a routine without a body is called that no host function of
    its name and number of parameters stands for. -/
inductive Refuses (a : Assembly) (h : Handle) : Fault → Prop where
  | stale (dead : a.routine? h = none) : Refuses a h .stale
  | takesParameters {r : Routine} (alive : a.routine? h = some r) (takes : r.params ≠ []) :
    Refuses a h (.takesParameters r.name r.params.length)
  | tooDeep {k : Handle} {args : List Float} {written : String}
    (called : a.Reaches h (.call 0 k args) written) : Refuses a h (.tooDeep a.depthLimit)
  | unresolved {depth : Nat} {k : Handle} {args : List Float} {written : String} {r : Routine}
    (called : a.Reaches h (.call depth k args) written) (alive : a.routine? k = some r)
    (bodiless : r.body = none)
    (missing : ∀ xs, xs.length = r.params.length → Host.call r.name xs = none) :
    Refuses a h (.unresolved r.name r.params.length)

/-! ### The invariant -/

/-- A body is being run: `done` of it is over, `rest` is still to come and checks with the
    values `known`, and the registers are those of the known values, with zero or one for
    each truth value. -/
structure Underway (a : Assembly) (k : Handle) (regs : Registers) (rest : List Instruction)
    (r : Routine) (done : List Instruction) (known : List Value) : Prop where
  alive : a.routine? k = some r
  cut : r.body = some (done ++ rest).toArray
  knows : ∀ v, v ∈ known ↔ v ∈ r.values ++ done.filterMap Instruction.dest?
  checked : a.checkBody known rest = true
  holds : ∀ v ∈ known, ∃ x, regs.read v = .ok x ∧ (r.Truth v → x = 0 ∨ x = 1)
  only : ∀ v x, regs.read v = .ok x → ∃ w ∈ known, w.id = v.id

def Checked (a : Assembly) : Prop := ∀ k, (a.routine? k).isSome → a.check k = true

namespace Underway

variable {done : List Instruction} {known : List Value} {i : Instruction}

theorem cut_toList (now : Underway a k regs rest r done known) :
    (r.body.getD #[]).toList = done ++ rest := by
  simp [now.cut]

theorem known_defined (now : Underway a k regs rest r done known) {v : Value}
    (member : v ∈ known) : v ∈ r.defined := by
  rw [Routine.defined, now.cut_toList, List.filterMap_append, ← List.append_assoc]
  exact List.mem_append_left _ ((now.knows v).1 member)

theorem truth (now : Underway a k regs rest r done known) (ordered : a.Ordered) {v : Value}
    (defined : v ∈ r.defined) (isTruth : r.Truth v) {x : Float} (hx : regs.read v = .ok x) :
    x = 0 ∨ x = 1 := by
  obtain ⟨w, member, same⟩ := now.only v x hx
  have eq : w = v :=
    (ordered k r now.alive).value_unique (now.known_defined member) defined same
  obtain ⟨y, hy, holds⟩ := now.holds w member
  rw [eq, hx] at hy
  cases hy
  exact holds (eq ▸ isTruth)

/-- A body that checks begins underway with its arguments. -/
theorem start (ordered : a.Ordered) (checked : a.Checked) {body : Array Instruction}
    {args : List Float} (alive : a.routine? k = some r) (has : r.body = some body)
    (count : r.params.length = args.length) :
    Underway a k (.ofArguments r.values args) body.toList r [] r.values where
  alive := alive
  cut := by simp [has]
  knows := by simp
  checked := by simpa [check, alive, has] using checked k (by simp [alive])
  holds := by
    intro v member
    have given := (ordered k r alive).count.trans count
    obtain ⟨x, hx⟩ := (Registers.read_ofArguments given v).2 (List.mem_map_of_mem member)
    exact ⟨x, hx, fun isTruth => absurd isTruth ((ordered k r alive).not_truth member)⟩
  only := by
    intro v x hx
    have given := (ordered k r alive).count.trans count
    exact List.mem_map.1 ((Registers.read_ofArguments given v).1 ⟨x, hx⟩)

theorem operands_known (now : Underway a k regs (i :: rest) r done known) :
    ∀ operand ∈ i.operands, operand.1 ∈ known ∧ operand.1.type = operand.2 := by
  have checked := now.checked
  simp only [checkBody, operandsFit, Bool.and_eq_true, List.all_eq_true, beq_iff_eq,
    List.contains_iff_mem] at checked
  exact checked.1.1

theorem callee_fits (now : Underway a k regs (i :: rest) r done known) :
    a.calleeFits i = true := by
  have checked := now.checked
  simp only [checkBody, Bool.and_eq_true] at checked
  exact checked.1.2

theorem checked_rest (now : Underway a k regs (i :: rest) r done known) {dest : Value}
    (defines : i.dest? = some dest) : a.checkBody (dest :: known) rest = true := by
  have checked := now.checked
  simp only [checkBody, defines, Bool.and_eq_true] at checked
  exact checked.2

theorem read_operand (now : Underway a k regs (i :: rest) r done known) {v : Value}
    {type : ValueType} (operand : (v, type) ∈ i.operands) :
    ∃ x, regs.read v = .ok x ∧ (type = .bool → x = 0 ∨ x = 1) := by
  obtain ⟨member, isType⟩ := now.operands_known _ operand
  obtain ⟨x, hx, holds⟩ := now.holds v member
  exact ⟨x, hx, fun isBool => holds (Or.inl (isType.trans isBool))⟩

/-- The arguments of a call can be read, and the callee is alive and takes so many. -/
theorem call_fits {dest : Value} {callee : Handle} {args : List Value}
    (now : Underway a k regs (.call dest callee args :: rest) r done known) :
    ∃ xs target, regs.readAll args = .ok xs ∧ a.routine? callee = some target ∧
      target.params.length = xs.length := by
  have fits := now.callee_fits
  simp only [calleeFits] at fits
  cases found : a.routine? callee with
  | none => simp [found] at fits
  | some target =>
    have readable : ∀ v ∈ args, ∃ x, regs.read v = .ok x := by
      intro v member
      have operand : (v, .double) ∈ (Instruction.call dest callee args).operands := by
        simpa [Instruction.operands] using member
      obtain ⟨x, hx, -⟩ := now.read_operand operand
      exact ⟨x, hx⟩
    obtain ⟨xs, hxs, length⟩ := Registers.readAll_ok readable
    have count : target.params.length = args.length := by simpa [found] using fits
    exact ⟨xs, target, hxs, rfl, count.trans length.symm⟩

/-- The next instruction is a call, or it has a value, which is zero or one where it makes a
    truth value. -/
theorem execute_next (now : Underway a k regs (i :: rest) r done known)
    (call : Handle → List Float → Run Float) :
    (∃ dest callee args, i = .call dest callee args) ∨
    ∃ x, (∀ written, (execute call regs i).run written = .ok (x, written)) ∧
      (i.resultType = .bool → x = 0 ∨ x = 1) ∧
      ∀ dest operand, i = .widen dest operand → x = 0 ∨ x = 1 := by
  cases i with
  | call dest callee args => exact Or.inl ⟨dest, callee, args, rfl⟩
  | const dest value =>
    refine Or.inr ⟨value, fun _ => rfl, fun isBool => ?_, fun _ _ widens => ?_⟩
    · cases isBool
    · cases widens
  | arith op dest left right =>
    obtain ⟨x, hx, -⟩ := now.read_operand List.mem_cons_self
    obtain ⟨y, hy, -⟩ := now.read_operand (List.mem_cons_of_mem _ List.mem_cons_self)
    refine Or.inr ⟨op.apply x y, fun written => ?_, fun isBool => ?_, fun _ _ widens => ?_⟩
    · simp only [execute, hx, hy]
      rfl
    · cases isBool
    · cases widens
  | lessThan dest left right =>
    obtain ⟨x, hx, -⟩ := now.read_operand List.mem_cons_self
    obtain ⟨y, hy, -⟩ := now.read_operand (List.mem_cons_of_mem _ List.mem_cons_self)
    refine Or.inr ⟨lessThanValue x y, fun written => ?_, fun _ => lessThanValue_truth x y,
      fun _ _ widens => ?_⟩
    · simp only [execute, hx, hy]
      rfl
    · cases widens
  | widen dest operand =>
    obtain ⟨x, hx, truth⟩ := now.read_operand List.mem_cons_self
    refine Or.inr ⟨x, fun written => ?_, fun isBool => ?_, fun _ _ _ => truth rfl⟩
    · simp only [execute, hx]
      rfl
    · cases isBool
  | ret value =>
    obtain ⟨x, hx, -⟩ := now.read_operand List.mem_cons_self
    refine Or.inr ⟨x, fun written => ?_, fun isBool => ?_, fun _ _ widens => ?_⟩
    · simp only [execute, hx]
      rfl
    · cases isBool
    · cases widens

/-- The step of the invariant: an instruction has run and its value is written. -/
theorem next (now : Underway a k regs (i :: rest) r done known) (ordered : a.Ordered)
    {call : Handle → List Float → Run Float} {dest : Value} {x : Float} {written' : String}
    (defines : i.dest? = some dest)
    (gives : (execute call regs i).run written = .ok (x, written')) :
    Underway a k (regs.write dest x) rest r (done ++ [i]) (dest :: known) where
  alive := now.alive
  cut := by simp [now.cut]
  knows := by
    intro v
    have defined : (done ++ [i]).filterMap Instruction.dest? =
        done.filterMap Instruction.dest? ++ [dest] := by
      rw [List.filterMap_append, List.filterMap_cons_some defines, List.filterMap_nil]
    rw [defined, ← List.append_assoc, List.mem_append, List.mem_cons, List.mem_singleton,
      now.knows, or_comm]
  checked := now.checked_rest defines
  holds := by
    have ordered' := ordered k r now.alive
    have inBody : i ∈ (r.body.getD #[]).toList := by simp [now.cut]
    intro v member
    rcases List.mem_cons.1 member with rfl | old
    · refine ⟨x, Registers.read_write regs v x, fun isTruth => ?_⟩
      rcases now.execute_next call with ⟨_, _, _, rfl⟩ | ⟨y, runs, ofType, ofWiden⟩
      · rcases isTruth with isBool | ⟨operand, widened⟩
        · have isDouble := ordered'.typed _ inBody v defines
          rw [isBool] at isDouble
          cases isDouble
        · cases ordered'.instruction_unique inBody widened defines rfl
      · rw [runs] at gives
        cases gives
        rcases isTruth with isBool | ⟨operand, widened⟩
        · exact ofType ((ordered'.typed i inBody v defines).symm.trans isBool)
        · exact ofWiden v operand (ordered'.instruction_unique inBody widened defines rfl)
    · have lt := ordered'.lt_dest now.cut_toList defines v ((now.knows v).1 old)
      rw [Registers.read_write_of_ne (Nat.ne_of_lt lt)]
      exact now.holds v old
  only := by
    intro v y hy
    by_cases same : v.id = dest.id
    · exact ⟨dest, List.mem_cons_self, same.symm⟩
    · rw [Registers.read_write_of_ne same] at hy
      obtain ⟨w, member, eq⟩ := now.only v y hy
      exact ⟨w, List.mem_cons_of_mem dest member, eq⟩

end Underway

/-! ### Whole runs -/

/-- What holds at every moment: a routine is called with as many arguments as it takes, and
    a body that is run is underway. -/
def Activity.Sound (a : Assembly) : Activity → Prop
  | .call _ callee args => ∃ r, a.routine? callee = some r ∧ r.params.length = args.length
  | .body _ k regs rest => ∃ r done known, a.Underway k regs rest r done known

theorem Reaches.sound {activity : Activity} (reaches : a.Reaches h activity written)
    (ordered : a.Ordered) (checked : a.Checked) : activity.Sound a := by
  induction reaches with
  | start alive closed => exact ⟨_, alive, by simp [closed]⟩
  | enter _ alive has ih =>
    obtain ⟨r, alive', count⟩ := ih
    rw [alive] at alive'
    cases alive'
    exact ⟨_, _, _, .start ordered checked alive has count⟩
  | next _ defines gives ih =>
    obtain ⟨r, done, known, now⟩ := ih
    exact ⟨_, _, _, now.next ordered defines gives⟩
  | call _ read ih =>
    obtain ⟨r, done, known, now⟩ := ih
    obtain ⟨xs, target, read', alive, count⟩ := now.call_fits
    rw [read] at read'
    cases read'
    exact ⟨target, alive, count⟩

section Faults

variable (ordered : a.Ordered) (checked : a.Checked)
include ordered checked

/-- A body that is reached fails only for a reason, if calls one deeper do. -/
theorem body_refuses (name : String)
    (calls : ∀ k args written fault, a.Reaches h (.call depth k args) written →
      (a.callRoutine depth k args).run written = .error fault → a.Refuses h fault)
    {fault : Fault} (reaches : a.Reaches h (.body depth k regs rest) written)
    (fails : (runBody (a.callRoutine depth) name regs rest).run written = .error fault) :
    a.Refuses h fault := by
  induction rest generalizing regs written with
  | nil =>
    obtain ⟨r, done, known, now⟩ := reaches.sound ordered checked
    have checked := now.checked
    cases checked
  | cons i rest ih =>
    obtain ⟨r, done, known, now⟩ := reaches.sound ordered checked
    rcases now.execute_next (a.callRoutine depth) with ⟨dest, callee, args, rfl⟩ | ⟨x, runs, -⟩
    · obtain ⟨xs, target, read, -⟩ := now.call_fits
      rw [runBody_call callee read, StateT.run_bind] at fails
      cases called : (a.callRoutine depth callee xs).run written with
      | error fault' =>
        rw [called] at fails
        cases fails
        exact calls callee xs written fault (.call reaches read) called
      | ok result =>
        rw [called] at fails
        have gives : (execute (a.callRoutine depth) regs (.call dest callee args)).run written =
            .ok (result.1, result.2) := by
          simp only [execute, read]
          exact called
        exact ih (.next reaches rfl gives) fails
    · rw [runBody, StateT.run_bind, runs written] at fails
      cases defines : i.dest? with
      | none =>
        simp only [defines] at fails
        cases fails
      | some dest =>
        simp only [defines] at fails
        exact ih (.next reaches defines (runs written)) fails

theorem call_refuses (depth : Nat) :
    ∀ k args written fault, a.Reaches h (.call depth k args) written →
      (a.callRoutine depth k args).run written = .error fault → a.Refuses h fault := by
  induction depth with
  | zero =>
    intro k args written fault reaches fails
    cases fails
    exact .tooDeep reaches
  | succ depth ih =>
    intro k args written fault reaches fails
    obtain ⟨r, alive, count⟩ := reaches.sound ordered checked
    rw [callRoutine, alive] at fails
    cases has : r.body with
    | none =>
      simp only [has, callHost] at fails
      cases found : Host.call r.name args with
      | none =>
        rw [found] at fails
        cases fails
        rw [← count]
        exact .unresolved reaches alive has fun xs length =>
          Host.call_eq_none found (length.trans count)
      | some result =>
        rw [found] at fails
        cases fails
    | some body =>
      simp only [has] at fails
      exact body_refuses ordered checked r.name ih (.enter reaches alive has) fails

end Faults

/-- In an assembly that was built by any calls and whose live routines all check, an
    evaluation fails only because the routine is not alive or takes parameters, calls nest
    too deep, or the host lacks a function; and all the while the truth values hold zero or
    one. -/
theorem evaluate_sound (built : a.Built) (checked : a.Checked) (h : Handle) :
    (∀ fault, a.evaluate h = .error fault → a.Refuses h fault) ∧
      ∀ depth k regs rest written, a.Reaches h (.body depth k regs rest) written →
        ∃ r, a.routine? k = some r ∧
          ∀ v ∈ r.defined, r.Truth v → ∀ x, regs.read v = .ok x → x = 0 ∨ x = 1 := by
  have ordered := built.ordered
  constructor
  · intro fault fails
    unfold evaluate at fails
    cases alive : a.routine? h with
    | none =>
      rw [alive] at fails
      cases fails
      exact .stale alive
    | some r =>
      rw [alive] at fails
      by_cases closed : r.params = []
      · simp only [closed, List.isEmpty_nil, if_true] at fails
        cases ran : (a.callRoutine a.depthLimit h []).run "" with
        | error fault' =>
          rw [ran] at fails
          cases fails
          exact call_refuses ordered checked a.depthLimit h [] "" fault (.start alive closed) ran
        | ok result =>
          rw [ran] at fails
          cases fails
      · simp only [List.isEmpty_iff, closed, if_false] at fails
        cases fails
        exact .takesParameters alive closed
  · intro depth k regs rest written reaches
    obtain ⟨r, done, known, now⟩ := reaches.sound ordered checked
    exact ⟨r, now.alive, fun v defined isTruth x hx => now.truth ordered defined isTruth hx⟩

/-- A comparison of two parameters, and a routine that calls it with two literals.  Between
    them a value is forged, and a routine is given up that never was. -/
def comparison : Assembly :=
  List.foldl (fun a call => call a) (empty "comparison" 8)
    [fun a => ((target.declare "" ["x", "y"]).run a).2,
     fun a => ((target.literal 3).run a).2,
     fun a => ((target.openBody 0).run a).2,
     fun a => ((target.lessThan ⟨0, .double⟩ ⟨1, .double⟩).run a).2,
     fun a => ((target.ret ⟨3, .double⟩).run a).2,
     fun a => ((target.declare "" []).run a).2,
     fun a => ((target.abandon 7).run a).2,
     fun a => ((target.openBody 1).run a).2,
     fun a => ((target.literal 1).run a).2,
     fun a => ((target.literal 2).run a).2,
     fun a => ((target.call 0 [⟨4, .double⟩, ⟨5, .double⟩]).run a).2,
     fun a => ((target.ret ⟨6, .double⟩).run a).2]

theorem built_comparison : comparison.Built :=
  .operate (.operate (.operate (.operate (.operate (.operate (.operate (.operate (.operate
    (.operate (.operate (.operate (.empty "comparison" 8)
      (.declare _ _)) (.literal _)) (.openBody _)) (.lessThan _ _)) (.ret _)) (.declare _ _))
        (.abandon _)) (.openBody _)) (.literal _)) (.literal _)) (.call _ _)) (.ret _)

theorem checked_comparison : comparison.Checked := by
  intro k alive
  have lt : k < 2 := by
    obtain ⟨r, hr⟩ := Option.isSome_iff_exists.1 alive
    have size : comparison.slots.size = 2 := by decide +kernel
    exact size ▸ lt_size_of_routine? hr
  match k, lt with
  | 0, _ => decide +kernel
  | 1, _ => decide +kernel

/-- The outcome of the comparison, while the callee is about to return it. -/
theorem comparison_sound :
    comparison.Built ∧ comparison.Checked ∧
      (∀ fault, comparison.evaluate 1 = .error fault → comparison.Refuses 1 fault) ∧
      ∃ regs x, comparison.Reaches 1 (.body 6 0 regs [.ret ⟨3, .double⟩]) "" ∧
        regs.read ⟨3, .double⟩ = .ok x ∧ (x = 0 ∨ x = 1) := by
  obtain ⟨refuses, truths⟩ := evaluate_sound built_comparison checked_comparison 1
  have caller : comparison.routine? 1 = some ⟨"", [], [], some #[.const ⟨4, .double⟩ 1,
    .const ⟨5, .double⟩ 2, .call ⟨6, .double⟩ 0 [⟨4, .double⟩, ⟨5, .double⟩],
    .ret ⟨6, .double⟩]⟩ := rfl
  have callee : comparison.routine? 0 = some ⟨"", ["x", "y"],
    [⟨0, .double⟩, ⟨1, .double⟩], some #[.lessThan ⟨2, .bool⟩ ⟨0, .double⟩ ⟨1, .double⟩,
      .widen ⟨3, .double⟩ ⟨2, .bool⟩, .ret ⟨3, .double⟩]⟩ := rfl
  have outside := Reaches.enter (Reaches.start caller rfl) caller rfl
  have called := Reaches.call (Reaches.next (Reaches.next outside rfl rfl) rfl rfl) rfl
  have inside := Reaches.enter called callee rfl
  have reaches := Reaches.next (Reaches.next inside rfl rfl) rfl rfl
  obtain ⟨r, alive, holds⟩ := truths _ _ _ _ _ reaches
  rw [callee] at alive
  cases alive
  refine ⟨built_comparison, checked_comparison, refuses, _, _, reaches, rfl, ?_⟩
  exact holds ⟨3, .double⟩ (by decide) (Or.inr ⟨⟨2, .bool⟩, by simp⟩) _ rfl

end Assembly

end Reckon
