/-
  Running the code of an expression.

  A run keeps values in registers where the interpreter passes them on.  The two come to
  the same, text and failure included, whatever comes after: that is how the statements
  here are put, with instructions `rest` still to be run on one side and a continuation on
  the other.  What an expression leaves behind is that its value is in the register that
  its code says, and that the registers numbered before it are as they were.

  The main statement is `Code.matches`, by induction on the code of the expression.
-/
import Reckon.Proofs.Generate.Code
import Reckon.Proofs.Meaning.Interpreter

namespace Reckon

/-! ### Coming to the same -/

/-- The interpreter and a run come to the same value, or fail for the same reason. -/
inductive Agrees {α : Type} : Except Obstacle α → Except Fault α → Prop where
  | value (a : α) : Agrees (.ok a) (.ok a)
  | tooDeep (limit : Nat) : Agrees (.error (.tooDeep limit)) (.error (.tooDeep limit))
  | unresolved (name : String) (count : Nat) :
    Agrees (.error (.unresolved name count)) (.error (.unresolved name count))

/-- They come to the same, and write the same, whatever was written before. -/
def Interpretation.Matches {α : Type} (p : Interpretation α) (q : Run α) : Prop :=
  ∀ written, Agrees (p.run written) (q.run written)

namespace Interpretation

variable {α β : Type}

theorem matches_pure (a : α) : Matches (pure a) (pure a) :=
  fun written => .value (a, written)

theorem Matches.bind {p : Interpretation α} {q : Run α} {k : α → Interpretation β}
    {l : α → Run β} (first : p.Matches q) (then_ : ∀ a, (k a).Matches (l a)) :
    Matches (p >>= k) (q >>= l) := by
  intro written
  have agrees := first written
  change Agrees ((p.run written) >>= fun done => (k done.1).run done.2)
    ((q.run written) >>= fun done => (l done.1).run done.2)
  generalize p.run written = left at agrees ⊢
  generalize q.run written = right at agrees ⊢
  cases agrees with
  | value done => exact then_ done.1 done.2
  | tooDeep limit => exact .tooDeep limit
  | unresolved name count => exact .unresolved name count

theorem matches_host (name : String) (args : List Float) :
    (hostValue name args).Matches (Assembly.callHost name args) := by
  intro written
  unfold hostValue Assembly.callHost
  cases Host.call name args with
  | none => exact .unresolved name args.length
  | some done => exact .value (done.1, written ++ done.2)

end Interpretation

/-! ### Registers -/

namespace Registers

variable {regs regs' : Registers} {scope : Scope Value} {bound : String → Option Float}
variable {first next : Nat} {v dest : Value} {x : Float}

def Keeps (first : Nat) (regs regs' : Registers) : Prop :=
  ∀ v : Value, v.id < first → regs'.read v = regs.read v

theorem Keeps.refl (first : Nat) (regs : Registers) : Keeps first regs regs := fun _ _ => rfl

theorem Keeps.trans {regs'' : Registers} (le : first ≤ next) (one : Keeps first regs regs')
    (two : Keeps next regs' regs'') : Keeps first regs regs'' :=
  fun v lt => (two v (Nat.lt_of_lt_of_le lt le)).trans (one v lt)

theorem read_write (regs : Registers) (v : Value) (x : Float) :
    (regs.write v x).read v = .ok x := by
  simp [read, write]

theorem keeps_write (regs : Registers) (x : Float) (le : first ≤ dest.id) :
    Keeps first regs (regs.write dest x) := by
  intro v lt
  have ne : (v.id == dest.id) = false := beq_false_of_ne (Nat.ne_of_lt (Nat.lt_of_lt_of_le lt le))
  simp [read, write, List.lookup_cons, ne]

/-- The values of the names in scope are numbered below `first` and hold what is bound to
    the names. -/
def Hold (scope : Scope Value) (bound : String → Option Float) (first : Nat)
    (regs : Registers) : Prop :=
  ∀ name v, scope.value? name = some v →
    v.id < first ∧ ∃ x, bound name = some x ∧ regs.read v = .ok x

theorem Hold.keeps (hold : Hold scope bound first regs) (kept : Keeps first regs regs')
    (le : first ≤ next) : Hold scope bound next regs' := by
  intro name v inScope
  obtain ⟨lt, x, isBound, has⟩ := hold name v inScope
  exact ⟨Nat.lt_of_lt_of_le lt le, x, isBound, (kept v lt).trans has⟩

end Registers

/-! ### Single instructions -/

namespace Assembly

variable {call : Handle → List Float → Run Float} {name : String} {regs : Registers}
variable {rest : List Instruction} {dest left right : Value} {x y : Float}

theorem runBody_const (regs : Registers) (dest : Value) (x : Float) (rest : List Instruction) :
    runBody call name regs (.const dest x :: rest) =
      runBody call name (regs.write dest x) rest := rfl

theorem runBody_arith (op : Arith) (hx : regs.read left = .ok x) (hy : regs.read right = .ok y) :
    runBody call name regs (.arith op dest left right :: rest) =
      runBody call name (regs.write dest (op.apply x y)) rest := by
  simp only [runBody, execute, hx, hy]
  rfl

theorem runBody_lessThan (hx : regs.read left = .ok x) (hy : regs.read right = .ok y) :
    runBody call name regs (.lessThan dest left right :: rest) =
      runBody call name (regs.write dest (lessThanValue x y)) rest := by
  simp only [runBody, execute, hx, hy]
  rfl

theorem runBody_widen (hx : regs.read left = .ok x) :
    runBody call name regs (.widen dest left :: rest) =
      runBody call name (regs.write dest x) rest := by
  simp only [runBody, execute, hx]
  rfl

theorem runBody_call {args : List Value} {xs : List Float} (callee : Handle)
    (hxs : regs.readAll args = .ok xs) :
    runBody call name regs (.call dest callee args :: rest) =
      call callee xs >>= fun x => runBody call name (regs.write dest x) rest := by
  simp only [runBody, execute, hxs]
  rfl

theorem runBody_ret (hx : regs.read left = .ok x) :
    runBody call name regs (.ret left :: rest) = pure x := by
  simp only [runBody, execute, hx]
  rfl

end Assembly

/-! ### The code of an expression -/

section Code

variable {callees : Callees} {scope : Scope Value} {first next : Nat}

mutual
theorem Code.le : ∀ {first next : Nat} {e : Expr} {is : List Instruction} {v : Value},
    Code callees scope first e is v next → first ≤ next
  | _, _, _, _, _, .num .. => Nat.le_succ _
  | _, _, _, _, _, .var .. => Nat.le_refl _
  | _, _, _, _, _, .arith _ _ ofLeft ofRight =>
    Nat.le_succ_of_le (Nat.le_trans ofLeft.le ofRight.le)
  | _, _, _, _, _, .lessThan _ _ ofLeft ofRight =>
    Nat.le_succ_of_le (Nat.le_succ_of_le (Nat.le_trans ofLeft.le ofRight.le))
  | _, _, _, _, _, .call _ _ ofArgs => Nat.le_succ_of_le ofArgs.le

theorem CodeList.le : ∀ {first next : Nat} {es : List Expr} {is : List Instruction}
    {vs : List Value}, CodeList callees scope first es is vs next → first ≤ next
  | _, _, _, _, _, .nil _ => Nat.le_refl _
  | _, _, _, _, _, .cons ofHead ofTail => Nat.le_trans ofHead.le ofTail.le
end

variable {call : String → List Float → Interpretation Float} {bound : String → Option Float}
variable {machine : Handle → List Float → Run Float} {name : String}

/-- What is left when the code of an expression has run: its value `x` is in `v`, numbered
    below `next`, and the registers numbered below `first` are as they were. -/
structure Left (first : Nat) (regs : Registers) (v : Value) (next : Nat) (x : Float)
    (regs' : Registers) : Prop where
  kept : Registers.Keeps first regs regs'
  lt : v.id < next
  has : regs'.read v = .ok x

structure LeftAll (first : Nat) (regs : Registers) (es : List Expr) (vs : List Value)
    (xs : List Float) (regs' : Registers) : Prop where
  kept : Registers.Keeps first regs regs'
  length : xs.length = es.length
  has : regs'.readAll vs = .ok xs

theorem left_write {regs regs' : Registers} (x : Float) (type : ValueType) (le : first ≤ next)
    (kept : Registers.Keeps first regs regs') :
    Left first regs ⟨next, type⟩ (next + 1) x (regs'.write ⟨next, type⟩ x) where
  kept := kept.trans (Nat.le_refl first) (Registers.keeps_write regs' x le)
  lt := Nat.lt_succ_self next
  has := Registers.read_write regs' _ x

mutual
/-- Running the code of an expression and going on comes to the same as interpreting the
    expression and going on. -/
theorem Code.matches (calls : ∀ callee count h, callees callee count h →
      ∀ xs, xs.length = count → (call callee xs).Matches (machine h xs)) :
    ∀ {first next : Nat} {e : Expr} {is : List Instruction} {v : Value},
      Code callees scope first e is v next →
      ∀ {regs : Registers}, regs.Hold scope bound first →
      ∀ {k : Float → Interpretation Float} {rest : List Instruction},
      (∀ x regs', Left first regs v next x regs' →
        (k x).Matches (Assembly.runBody machine name regs' rest)) →
      (e.value call bound >>= k).Matches (Assembly.runBody machine name regs (is ++ rest))
  | _, _, _, _, _, .num first x s, regs, hold, k, rest, goes => by
    simp only [Expr.value, pure_bind, List.cons_append, List.nil_append, Assembly.runBody_const]
    exact goes x _ (left_write x .double (Nat.le_refl first) (.refl first regs))
  | _, _, _, _, _, .var first s inScope, regs, hold, k, rest, goes => by
    obtain ⟨lt, x, isBound, has⟩ := hold _ _ inScope
    simp only [Expr.value, isBound, pure_bind, List.nil_append]
    exact goes x regs ⟨.refl first regs, lt, has⟩
  | _, _, _, _, _, .arith s operation ofLeft ofRight, regs, hold, k, rest, goes => by
    simp only [Expr.value, bind_assoc, List.append_assoc]
    refine ofLeft.matches calls hold fun x regs₁ left => ?_
    refine ofRight.matches calls (hold.keeps left.kept ofLeft.le) fun y regs₂ right => ?_
    have hx := (right.kept _ left.lt).trans left.has
    rw [List.cons_append, List.nil_append, Assembly.runBody_arith _ hx right.has]
    have le := Nat.le_trans ofLeft.le ofRight.le
    have kept := left.kept.trans ofLeft.le right.kept
    unfold Operation.ofChar? at operation
    split at operation <;> cases operation
    all_goals
      simp only [pure_bind]
      exact goes _ _ (left_write _ .double le kept)
  | _, _, _, _, _, .lessThan s operation ofLeft ofRight, regs, hold, k, rest, goes => by
    simp only [Expr.value, bind_assoc, List.append_assoc]
    refine ofLeft.matches calls hold fun x regs₁ left => ?_
    refine ofRight.matches calls (hold.keeps left.kept ofLeft.le) fun y regs₂ right => ?_
    have hx := (right.kept _ left.lt).trans left.has
    rw [List.cons_append, List.cons_append, List.nil_append,
      Assembly.runBody_lessThan hx right.has,
      Assembly.runBody_widen (Registers.read_write regs₂ _ _)]
    have le := Nat.le_trans ofLeft.le ofRight.le
    have kept := left.kept.trans ofLeft.le right.kept
    have compared := left_write (lessThanValue x y) .bool le kept
    unfold Operation.ofChar? at operation
    split at operation <;> cases operation
    simp only [pure_bind]
    exact goes _ _ (left_write _ .double (Nat.le_succ_of_le le) compared.kept)
  | _, _, _, _, _, .call s found ofArgs, regs, hold, k, rest, goes => by
    simp only [Expr.value, bind_assoc, List.append_assoc]
    refine ofArgs.matches calls hold fun xs regs₁ left => ?_
    rw [List.cons_append, List.nil_append, Assembly.runBody_call _ left.has]
    refine (calls _ _ _ found xs left.length).bind fun x => ?_
    exact goes x _ (left_write x .double ofArgs.le left.kept)

theorem CodeList.matches (calls : ∀ callee count h, callees callee count h →
      ∀ xs, xs.length = count → (call callee xs).Matches (machine h xs)) :
    ∀ {first next : Nat} {es : List Expr} {is : List Instruction} {vs : List Value},
      CodeList callees scope first es is vs next →
      ∀ {regs : Registers}, regs.Hold scope bound first →
      ∀ {k : List Float → Interpretation Float} {rest : List Instruction},
      (∀ xs regs', LeftAll first regs es vs xs regs' →
        (k xs).Matches (Assembly.runBody machine name regs' rest)) →
      (Expr.values call bound es >>= k).Matches
        (Assembly.runBody machine name regs (is ++ rest))
  | _, _, _, _, _, .nil first, regs, hold, k, rest, goes => by
    simp only [Expr.values, pure_bind, List.nil_append]
    exact goes [] regs ⟨.refl first regs, rfl, rfl⟩
  | _, _, _, _, _, .cons ofHead ofTail, regs, hold, k, rest, goes => by
    simp only [Expr.values, bind_assoc, pure_bind, List.append_assoc]
    refine ofHead.matches calls hold fun x regs₁ left => ?_
    refine ofTail.matches calls (hold.keeps left.kept ofHead.le) fun xs regs₂ right => ?_
    refine goes (x :: xs) regs₂ ⟨left.kept.trans ofHead.le right.kept, ?_, ?_⟩
    · rw [List.length_cons, List.length_cons, right.length]
    · have hx := (right.kept _ left.lt).trans left.has
      simp only [Registers.readAll, hx, right.has]
      rfl
end

end Code

/-! ### Parameters -/

/-- Looking for the last of several equal keys finds nothing where the key is missing. -/
theorem lookup_zip_reverse_eq_none {κ α : Type} [BEq κ] [LawfulBEq κ] {keys : List κ}
    {items : List α} (len : keys.length ≤ items.length) {k : κ} :
    (keys.zip items).reverse.lookup k = none ↔ k ∉ keys := by
  have all := List.map_fst_zip len
  rw [List.lookup_eq_none_iff]
  constructor
  · intro none member
    rw [← all] at member
    obtain ⟨entry, there, eq⟩ := List.mem_map.1 member
    simpa [eq] using none entry (List.mem_reverse.2 there)
  · intro absent entry there
    rw [← all] at absent
    apply bne_iff_ne.2
    rintro rfl
    exact absent (List.mem_map_of_mem (List.mem_reverse.1 there))

namespace Scope

variable {V : Type}

theorem value?_bind (s : Scope V) (name : String) (v : V) (other : String) :
    (s.bind name v).value? other = if other = name then some v else s.value? other := by
  simp only [bind, value?, List.lookup_cons]
  by_cases same : other = name
  · simp [same]
  · rw [if_neg same, beq_false_of_ne same]
    simp only
    induction s with
    | nil => rfl
    | cons entry rest ih =>
      obtain ⟨key, item⟩ := entry
      by_cases shadowed : key = name
      · simp [shadowed, List.lookup_cons, ih, beq_false_of_ne same]
      · simp [shadowed, List.lookup_cons, ih]

/-- Of a repeated parameter the last one is bound. -/
theorem value?_ofParams (params : List String) (values : List V) (name : String) :
    (ofParams params values).value? name = (params.zip values).reverse.lookup name := by
  have fold : ∀ (entries : List (String × V)) (s : Scope V),
      (entries.foldl (fun s entry => s.bind entry.1 entry.2) s).value? name =
        (entries.reverse.lookup name).or (s.value? name) := by
    intro entries
    induction entries with
    | nil => exact fun s => rfl
    | cons entry rest ih =>
      intro s
      obtain ⟨key, item⟩ := entry
      rw [List.foldl_cons, ih, value?_bind, List.reverse_cons, List.lookup_append,
        Option.or_assoc]
      by_cases same : name = key
      · simp [same]
      · simp [List.lookup_cons, beq_false_of_ne same, same]
  rw [ofParams, fold]
  exact Option.or_none

theorem mem_of_value?_ofParams {params : List String} {values : List V} {name : String} {v : V}
    (bound : (ofParams params values).value? name = some v) : v ∈ values := by
  rw [value?_ofParams] at bound
  obtain ⟨front, back, eq, -⟩ := List.lookup_eq_some_iff.1 bound
  have member : (name, v) ∈ (params.zip values).reverse := by simp [eq]
  exact (List.of_mem_zip (List.mem_reverse.1 member)).2

end Scope

/-- The register of the last parameter of a name holds the argument of that parameter. -/
theorem lookup_ofArguments {params : List String} {values : List Value} {args : List Float}
    (count : params.length = values.length) (given : values.length = args.length)
    (distinct : (values.map (·.id)).Nodup) {name : String} {v : Value}
    (found : (params.zip values).reverse.lookup name = some v) :
    ∃ x, argument? params args name = some x ∧
      (Registers.ofArguments values args).read v = .ok x := by
  suffices held : ∃ x, (params.zip args).reverse.lookup name = some x ∧
      ((values.map (·.id)).zip args).reverse.lookup v.id = some x by
    obtain ⟨x, bound, held⟩ := held
    exact ⟨x, bound, by simp [Registers.read, Registers.ofArguments, held]⟩
  induction params generalizing values args with
  | nil => simp at found
  | cons p ps ih =>
    obtain _ | ⟨w, ws⟩ := values
    · simp at count
    obtain _ | ⟨y, ys⟩ := args
    · simp at given
    simp only [List.length_cons, Nat.add_right_cancel_iff] at count given
    simp only [List.map_cons, List.nodup_cons] at distinct
    simp only [List.map_cons, List.zip_cons_cons, List.reverse_cons, List.lookup_append]
      at found ⊢
    cases later : (ps.zip ws).reverse.lookup name with
    | some u =>
      -- The name stands among the later parameters too.
      rw [later] at found
      cases found
      obtain ⟨x, bound, held⟩ := ih count given distinct.2 later
      exact ⟨x, by rw [bound]; rfl, by rw [held]; rfl⟩
    | none =>
      rw [later] at found
      by_cases same : name = p
      · subst same
        simp only [List.lookup_cons, beq_self_eq_true, Option.none_or] at found
        cases found
        have unbound : (ps.zip ys).reverse.lookup name = none :=
          (lookup_zip_reverse_eq_none (by omega)).2
            ((lookup_zip_reverse_eq_none (by omega)).1 later)
        have unheld : ((ws.map (·.id)).zip ys).reverse.lookup v.id = none :=
          (lookup_zip_reverse_eq_none (by simp; omega)).2 distinct.1
        exact ⟨y, by simp [unbound], by simp [unheld]⟩
      · simp [List.lookup_cons, beq_false_of_ne same] at found

/-- At the beginning of a body the names of the parameters are bound to registers that hold
    the arguments. -/
theorem Registers.hold_ofArguments {params : List String} {values : List Value}
    {args : List Float} {first : Nat} (count : params.length = values.length)
    (given : values.length = args.length) (distinct : (values.map (·.id)).Nodup)
    (below : ∀ v ∈ values, v.id < first) :
    Hold (.ofParams params values) (argument? params args) first
      (.ofArguments values args) := by
  intro name v inScope
  refine ⟨below v (Scope.mem_of_value?_ofParams inScope), ?_⟩
  rw [Scope.value?_ofParams] at inScope
  exact lookup_ofArguments count given distinct inScope

/-- Running a body with its return comes to the same as interpreting its expression. -/
theorem Code.matches_body {callees : Callees} {params : List String} {values : List Value}
    {args : List Float} {first next : Nat} {e : Expr} {is : List Instruction} {v : Value}
    {call : String → List Float → Interpretation Float}
    {machine : Handle → List Float → Run Float} (name : String)
    (calls : ∀ callee count h, callees callee count h →
      ∀ xs, xs.length = count → (call callee xs).Matches (machine h xs))
    (code : Code callees (.ofParams params values) first e is v next)
    (count : params.length = values.length) (given : values.length = args.length)
    (distinct : (values.map (·.id)).Nodup) (below : ∀ v ∈ values, v.id < first) :
    (e.value call (argument? params args)).Matches
      (Assembly.runBody machine name (.ofArguments values args) (is ++ [.ret v])) := by
  have hold := Registers.hold_ofArguments count given distinct below
  rw [← bind_pure (e.value call _)]
  refine code.matches calls hold fun x regs left => ?_
  rw [Assembly.runBody_ret left.has]
  exact Interpretation.matches_pure x

end Reckon
