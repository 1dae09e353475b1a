/-
  Well-formed routines.

  A body is well-formed if it returns at its end and nowhere else, each of its operands is
  defined before it and has the type that its place asks for, and each of its calls goes to a
  live routine with as many parameters as the call has arguments.  Here that is said of all
  places of a body at once (`WellFormed`), and not in the order of a pass over it.

  The checker goes through a body once and keeps the values that it has come by.  One
  instruction of it asks for the same as one more instruction at the front of a well-formed
  body (`checkBody_cons_iff`, `wellFormed_cons_iff`), so by induction the two agree.  The main
  statement is `verify_wellFormed`, which holds of any assembly, however it came about.
-/
import Reckon.Assembly.Target

namespace Reckon

/-! ### Operands -/

/-- A value is an operand of an instruction, in a place that asks for a type: a conversion
    takes the outcome of a comparison, and all others take doubles. -/
inductive Instruction.Takes : Instruction → Value → ValueType → Prop where
  | arith {op : Arith} {dest left right v : Value} (operand : v = left ∨ v = right) :
    Takes (.arith op dest left right) v .double
  | lessThan {dest left right v : Value} (operand : v = left ∨ v = right) :
    Takes (.lessThan dest left right) v .double
  | widen {dest v : Value} : Takes (.widen dest v) v .bool
  | call {dest v : Value} {callee : Handle} {args : List Value} (argument : v ∈ args) :
    Takes (.call dest callee args) v .double
  | ret {v : Value} : Takes (.ret v) v .double

theorem Instruction.takes_iff {i : Instruction} {v : Value} {type : ValueType} :
    i.Takes v type ↔ (v, type) ∈ i.operands := by
  constructor
  · intro takes
    cases takes with
    | arith operand | lessThan operand => rcases operand with rfl | rfl <;> simp [operands]
    | widen | ret => exact List.mem_singleton_self _
    | call argument => exact List.mem_map_of_mem argument
  · intro member
    cases i with
    | const => cases member
    | arith =>
      obtain ⟨operand, rfl⟩ : (v = _ ∨ v = _) ∧ type = .double := by
        simpa [operands, or_and_right] using member
      exact .arith operand
    | lessThan =>
      obtain ⟨operand, rfl⟩ : (v = _ ∨ v = _) ∧ type = .double := by
        simpa [operands, or_and_right] using member
      exact .lessThan operand
    | widen =>
      cases List.mem_singleton.1 member
      exact .widen
    | call =>
      obtain ⟨arg, argument, eq⟩ := List.mem_map.1 member
      cases eq
      exact .call argument
    | ret =>
      cases List.mem_singleton.1 member
      exact .ret

theorem Instruction.dest?_eq_none_iff {i : Instruction} : i.dest? = none ↔ ∃ v, i = .ret v := by
  cases i <;> simp [dest?]

namespace Assembly

variable {a : Assembly} {known : List Value} {i : Instruction} {body rest : List Instruction}

/-! ### One instruction -/

def CallFits (a : Assembly) (i : Instruction) : Prop :=
  ∀ dest callee args, i = .call dest callee args →
    ∃ r, a.routine? callee = some r ∧ r.params.length = args.length

theorem calleeFits_iff : a.calleeFits i = true ↔ a.CallFits i := by
  cases i with
  | call dest callee args =>
    rw [calleeFits]
    cases found : a.routine? callee with
    | none => simp [CallFits, found]
    | some r => simp [CallFits, found]
  | _ => simp [calleeFits, CallFits]

theorem operandsFit_iff :
    operandsFit known i = true ↔ ∀ v type, i.Takes v type → v ∈ known ∧ v.type = type := by
  simp [operandsFit, Instruction.takes_iff]

/-- What the checker asks for at one instruction, with the values before it. -/
theorem checkBody_cons_iff : a.checkBody known (i :: rest) = true ↔
    (∀ v type, i.Takes v type → v ∈ known ∧ v.type = type) ∧ a.CallFits i ∧
      ((∃ v, i = .ret v) ∧ rest = [] ∨
        ∃ dest, i.dest? = some dest ∧ a.checkBody (dest :: known) rest = true) := by
  rw [checkBody, Bool.and_eq_true, Bool.and_eq_true, operandsFit_iff, calleeFits_iff, and_assoc,
    ← Instruction.dest?_eq_none_iff]
  cases i.dest? with
  | none => simp
  | some dest => simp

/-! ### Bodies -/

/-- A body is well-formed where the values `known` are defined before it. -/
structure WellFormed (a : Assembly) (known : List Value) (body : List Instruction) : Prop where
  returns : ∃ front value, body = front ++ [.ret value] ∧ ∀ v, .ret v ∉ front
  operands : ∀ front i back, body = front ++ i :: back → ∀ v type, i.Takes v type →
    (v ∈ known ∨ ∃ j ∈ front, j.dest? = some v) ∧ v.type = type
  calls : ∀ i ∈ body, a.CallFits i

namespace WellFormed

theorem first (wellFormed : a.WellFormed known (i :: rest)) :
    ∀ v type, i.Takes v type → v ∈ known ∧ v.type = type := by
  intro v type takes
  obtain ⟨defined, typed⟩ := wellFormed.operands [] i rest rfl v type takes
  refine ⟨defined.resolve_right ?_, typed⟩
  rintro ⟨j, member, -⟩
  cases member

/-- A return stands alone, and any other instruction defines a value for the rest. -/
theorem others (wellFormed : a.WellFormed known (i :: rest)) :
    (∃ v, i = .ret v) ∧ rest = [] ∨
      ∃ dest, i.dest? = some dest ∧ a.WellFormed (dest :: known) rest := by
  obtain ⟨front, value, eq, single⟩ := wellFormed.returns
  cases front with
  | nil =>
    cases eq
    exact Or.inl ⟨⟨value, rfl⟩, rfl⟩
  | cons j front =>
    obtain ⟨rfl, rfl⟩ := List.cons.inj eq
    right
    cases gives : i.dest? with
    | none =>
      obtain ⟨v, rfl⟩ := Instruction.dest?_eq_none_iff.1 gives
      exact absurd List.mem_cons_self (single v)
    | some dest =>
      refine ⟨dest, rfl, ⟨front, value, rfl, ?_⟩, ?_, ?_⟩
      · exact fun v member => single v (List.mem_cons_of_mem i member)
      · intro before j behind cut v type takes
        obtain ⟨defined, typed⟩ :=
          wellFormed.operands (i :: before) j behind (congrArg (i :: ·) cut) v type takes
        refine ⟨?_, typed⟩
        rcases defined with old | ⟨k, member, result⟩
        · exact Or.inl (List.mem_cons_of_mem dest old)
        · rcases List.mem_cons.1 member with rfl | later
          · rw [gives] at result
            cases result
            exact Or.inl List.mem_cons_self
          · exact Or.inr ⟨k, later, result⟩
      · exact fun j member => wellFormed.calls j (List.mem_cons_of_mem i member)

theorem ret {value : Value}
    (operands : ∀ v type, (Instruction.ret value).Takes v type → v ∈ known ∧ v.type = type) :
    a.WellFormed known [.ret value] where
  returns := ⟨[], value, rfl, fun _ => List.not_mem_nil⟩
  operands := by
    intro front i back cut v type takes
    obtain ⟨rfl, -, rfl⟩ : front = [] ∧ back = [] ∧ i = .ret value := by
      simpa [List.append_eq_singleton_iff, eq_comm, and_comm] using cut
    obtain ⟨old, typed⟩ := operands v type takes
    exact ⟨Or.inl old, typed⟩
  calls := by
    intro i member
    rw [List.mem_singleton.1 member]
    exact nofun

theorem cons {dest : Value} (operands : ∀ v type, i.Takes v type → v ∈ known ∧ v.type = type)
    (fits : a.CallFits i) (gives : i.dest? = some dest)
    (wellFormed : a.WellFormed (dest :: known) rest) : a.WellFormed known (i :: rest) where
  returns := by
    obtain ⟨front, value, rfl, single⟩ := wellFormed.returns
    refine ⟨i :: front, value, rfl, fun v member => ?_⟩
    rcases List.mem_cons.1 member with rfl | later
    · cases gives
    · exact single v later
  operands := by
    intro front j back cut v type takes
    cases front with
    | nil =>
      obtain ⟨rfl, -⟩ := List.cons.inj cut
      obtain ⟨old, typed⟩ := operands v type takes
      exact ⟨Or.inl old, typed⟩
    | cons k front =>
      obtain ⟨rfl, later⟩ := List.cons.inj cut
      obtain ⟨defined, typed⟩ := wellFormed.operands front j back later v type takes
      refine ⟨?_, typed⟩
      rcases defined with known | ⟨k, member, result⟩
      · rcases List.mem_cons.1 known with rfl | old
        · exact Or.inr ⟨i, List.mem_cons_self, gives⟩
        · exact Or.inl old
      · exact Or.inr ⟨k, List.mem_cons_of_mem i member, result⟩
  calls := List.forall_mem_cons.2 ⟨fits, wellFormed.calls⟩

end WellFormed

/-- What an instruction at the front of a body has to do with its being well-formed. -/
theorem wellFormed_cons_iff : a.WellFormed known (i :: rest) ↔
    (∀ v type, i.Takes v type → v ∈ known ∧ v.type = type) ∧ a.CallFits i ∧
      ((∃ v, i = .ret v) ∧ rest = [] ∨
        ∃ dest, i.dest? = some dest ∧ a.WellFormed (dest :: known) rest) := by
  constructor
  · intro wellFormed
    exact ⟨wellFormed.first, wellFormed.calls i List.mem_cons_self, wellFormed.others⟩
  · rintro ⟨operands, fits, ⟨⟨v, rfl⟩, rfl⟩ | ⟨dest, gives, wellFormed⟩⟩
    · exact .ret operands
    · exact .cons operands fits gives wellFormed

theorem checkBody_iff : a.checkBody known body = true ↔ a.WellFormed known body := by
  induction body generalizing known with
  | nil =>
    refine iff_of_false nofun fun wellFormed => ?_
    obtain ⟨front, value, eq, -⟩ := wellFormed.returns
    simp at eq
  | cons i rest ih => simp only [checkBody_cons_iff, wellFormed_cons_iff, ih]

instance : Decidable (a.WellFormed known body) := decidable_of_iff _ checkBody_iff

/-- An operand is defined with its type, and not by its number alone. -/
example : ¬ (empty "" 0).WellFormed [⟨0, .double⟩]
    [.widen ⟨1, .double⟩ ⟨0, .bool⟩, .ret ⟨1, .double⟩] := by decide

/-! ### Routines -/

/-- A routine is only declared, or its body is well-formed with its parameters known. -/
inductive Accepts (a : Assembly) (r : Routine) : Prop where
  | declared (bodiless : r.body = none)
  | defined {body : Array Instruction} (has : r.body = some body)
    (wellFormed : a.WellFormed r.values body.toList)

theorem accepts_iff {r : Routine} {body : Array Instruction} (has : r.body = some body) :
    a.Accepts r ↔ a.WellFormed r.values body.toList := by
  constructor
  · intro accepted
    cases accepted with
    | declared bodiless => cases has.symm.trans bodiless
    | defined has' wellFormed =>
      cases has.symm.trans has'
      exact wellFormed
  · exact .defined has

theorem check_iff {h : Handle} :
    a.check h = true ↔ ∃ r, a.routine? h = some r ∧ a.Accepts r := by
  cases alive : a.routine? h with
  | none => simp [check, alive]
  | some r =>
    have checks : a.check h = true ↔ a.Accepts r := by
      cases has : r.body with
      | none => exact iff_of_true (by simp [check, alive, has]) (.declared has)
      | some body => simp [check, alive, has, checkBody_iff, accepts_iff has]
    simp [checks]

/-- Verifying a handle leaves the assembly as it is, and answers whether the handle stands for a
    live routine that is well-formed. -/
theorem verify_wellFormed (a : Assembly) (h : Handle) :
    ((target.verify h).run a).2 = a ∧
      (((target.verify h).run a).1 = true ↔ ∃ r, a.routine? h = some r ∧ a.Accepts r) :=
  ⟨rfl, check_iff⟩

end Assembly

end Reckon
