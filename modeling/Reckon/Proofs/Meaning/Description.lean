/-
  Assemblies described by environments.

  `Computes` says that a routine stands for a meaning: one without a body for a function of
  the host, one with a body for the definition whose code that body is.  An environment
  `Describes` an assembly when its names are those of the live routines and every routine
  computes what its name means.

  Definitions and declarations keep the description if the environment learns them; all
  else keeps it as it is.  The main statement is `Describes.call_matches`: calling a
  function by name in the interpreter and calling its routine in a run come to the same, at
  every depth.
-/
import Reckon.Proofs.Meaning.Execution
import Reckon.Proofs.Session.Effect

namespace Reckon

/-! ### Values of parameters -/

/-- Each parameter has a value of its own, numbered below `first`. -/
structure Routine.Numbered (r : Routine) (first : Nat) : Prop where
  count : r.params.length = r.values.length
  distinct : (r.values.map (·.id)).Nodup
  below : ∀ v ∈ r.values, v.id < first

theorem Routine.Numbered.mono {r : Routine} {first next : Nat} (numbered : r.Numbered first)
    (le : first ≤ next) : r.Numbered next :=
  ⟨numbered.count, numbered.distinct,
    fun v member => Nat.lt_of_lt_of_le (numbered.below v member) le⟩

namespace Assembly

variable {a b c : Assembly} {h : Handle} {r : Routine} {p : Prototype} {d : Definition}
variable {o : Outcome}

def Numbered (a : Assembly) : Prop :=
  ∀ h r, a.routine? h = some r → r.Numbered a.nextValue

theorem numbered_empty (moduleName : String) (depthLimit : Nat) :
    (empty moduleName depthLimit).Numbered :=
  fun _ _ hr => nomatch hr

theorem numbered_newRoutine (a : Assembly) (name : String) (params : List String) :
    (a.newRoutine name params).Numbered (a.declared name params).nextValue where
  count := by simp [newRoutine]
  distinct := by
    have ids : ((a.newRoutine name params).values.map (·.id)) =
        List.range' a.nextValue params.length := by
      simp [newRoutine, Function.comp_def]
    rw [ids]
    exact List.nodup_range'
  below v member := by
    obtain ⟨id, inRange, rfl⟩ := List.mem_map.1 member
    exact (List.mem_range'_1.1 inRange).2

theorem Keeps.numbered (keeps : a.Keeps b) (numbered : a.Numbered) : b.Numbered := by
  intro h r hr
  rw [keeps.routine?_eq] at hr
  exact (numbered h r hr).mono keeps.nextValue

theorem Declares.numbered (declares : a.Declares p h b) (numbered : a.Numbered) :
    b.Numbered := by
  intro k r hr
  cases declares with
  | found named count => exact numbered k r hr
  | new unnamed =>
    rw [routine?_declared] at hr
    split at hr
    · cases hr
      exact numbered_newRoutine a p.name p.params
    · exact (numbered k r hr).mono (Nat.le_add_right _ _)

theorem Defines.numbered (defines : a.Defines d h c) (numbered : a.Numbered) :
    c.Numbered := by
  obtain ⟨declares, here, bodiless, code, le, rfl, -⟩ := defines
  intro k s hs
  have between := declares.numbered numbered
  rw [routine?_fill here] at hs
  split at hs
  · cases hs
    have same := (between _ _ here).mono le
    exact ⟨same.count, same.distinct, same.below⟩
  · exact (between k s hs).mono le

theorem Effect.numbered (effect : a.Effect o b) (numbered : a.Numbered) : b.Numbered := by
  cases effect with
  | definition defines code => exact defines.numbered numbered
  | external declares code => exact declares.numbered numbered
  | expression keeps => exact keeps.numbered numbered
  | skipped => exact numbered
  | failed keeps => exact keeps.numbered numbered

/-! ### The limit of depth -/

theorem Declares.depthLimit_eq (declares : a.Declares p h b) :
    b.depthLimit = a.depthLimit := by
  cases declares <;> rfl

theorem Defines.depthLimit_eq (defines : a.Defines d h c) : c.depthLimit = a.depthLimit := by
  obtain ⟨declares, -, -, -, -, rfl, -⟩ := defines
  exact declares.depthLimit_eq

theorem Effect.depthLimit_eq (effect : a.Effect o b) : b.depthLimit = a.depthLimit := by
  cases effect with
  | definition defines code => exact defines.depthLimit_eq
  | external declares code => exact declares.depthLimit_eq
  | expression keeps => exact keeps.depthLimit
  | skipped => rfl
  | failed keeps => exact keeps.depthLimit

end Assembly

/-! ### Callees -/

mutual
theorem Code.mono {callees callees' : Callees} {scope : Scope Value}
    (le : ∀ name count h, callees name count h → callees' name count h) :
    ∀ {first next : Nat} {e : Expr} {is : List Instruction} {v : Value},
      Code callees scope first e is v next → Code callees' scope first e is v next
  | _, _, _, _, _, .num first x s => .num first x s
  | _, _, _, _, _, .var first s bound => .var first s bound
  | _, _, _, _, _, .arith s operation ofLeft ofRight =>
    .arith s operation (ofLeft.mono le) (ofRight.mono le)
  | _, _, _, _, _, .lessThan s operation ofLeft ofRight =>
    .lessThan s operation (ofLeft.mono le) (ofRight.mono le)
  | _, _, _, _, _, .call s found ofArgs => .call s (le _ _ _ found) (ofArgs.mono le)

theorem CodeList.mono {callees callees' : Callees} {scope : Scope Value}
    (le : ∀ name count h, callees name count h → callees' name count h) :
    ∀ {first next : Nat} {es : List Expr} {is : List Instruction} {vs : List Value},
      CodeList callees scope first es is vs next → CodeList callees' scope first es is vs next
  | _, _, _, _, _, .nil first => .nil first
  | _, _, _, _, _, .cons ofHead ofTail => .cons (ofHead.mono le) (ofTail.mono le)
end

namespace Assembly

variable {a b c : Assembly} {h : Handle} {r s : Routine} {p : Prototype} {d : Definition}
variable {env : Environment} {m : Meaning}

/-- A call goes where it went while routines are only added and completed. -/
theorem Grows.callees (grows : a.Grows b) (unique : b.UniqueNames) (name : String)
    (count : Nat) (h : Handle) (found : a.callees name count h) : b.callees name count h := by
  obtain ⟨named, arity⟩ := found
  obtain ⟨r, hr, rfl⟩ := routine?_of_lookup named
  obtain ⟨s, hs, completes⟩ := grows h r hr
  have nonempty := (lookup_eq_some_iff.1 named).1
  rw [← completes.name_eq] at nonempty ⊢
  refine ⟨unique.lookup hs nonempty, ?_⟩
  simpa [Assembly.arity, hr, hs, completes.params_eq] using arity

/-! ### What routines compute -/

inductive Computes (a : Assembly) (r : Routine) : Meaning → Prop where
  | external (bodiless : r.body = none) : Computes a r .external
  | defined {params : List String} {body : Expr} {first next : Nat} {is : List Instruction}
    {v : Value} (count : params.length = r.params.length) (numbered : r.Numbered first)
    (code : Code a.callees (.ofParams params r.values) first body is v next)
    (has : r.body = some (is ++ [Instruction.ret v]).toArray) :
    Computes a r (.defined params body)

theorem Computes.grows (computes : a.Computes r m) (grows : a.Grows b)
    (unique : b.UniqueNames) : b.Computes r m := by
  cases computes with
  | external bodiless => exact .external bodiless
  | defined count numbered code has =>
    exact .defined count numbered (code.mono (grows.callees unique)) has

/-- The routine that a definition completes computes the definition. -/
theorem Defines.computes (defines : a.Defines d h c) (numbered : a.Numbered)
    (unique : a.UniqueNames) : ∃ r, c.routine? h = some r ∧ r.name = d.proto.name ∧
      c.Computes r (.defined d.proto.params d.body) := by
  obtain @⟨b, r, is, v, next, declares, here, bodiless, code, le, rfl, -⟩ := defines
  obtain ⟨s, hs, name, count, -⟩ := declares.here
  rw [here] at hs
  cases hs
  have between := declares.unique unique
  have same := declares.numbered numbered _ _ here
  refine ⟨{ r with body := some (is ++ [Instruction.ret v]).toArray },
    by rw [routine?_fill here, if_pos rfl], name, ?_⟩
  exact .defined count.symm ⟨same.count, same.distinct, same.below⟩
    (code.mono ((grows_fill here bodiless).callees (unique_fill here between))) rfl

end Assembly

/-! ### Descriptions -/

namespace Environment

open Assembly

variable {env : Environment} {a b c : Assembly} {h : Handle} {r : Routine} {p : Prototype}
variable {d : Definition}

/-- The names that mean something are those of live routines, and every routine with a name
    computes what its name means. -/
structure Describes (env : Environment) (a : Assembly) : Prop where
  computes : ∀ h r, a.routine? h = some r → r.name ≠ "" →
    ∃ m, env r.name = some m ∧ a.Computes r m
  live : ∀ name, (env name).isSome → ∃ h r, a.routine? h = some r ∧ r.name = name

theorem describes_empty (moduleName : String) (depthLimit : Nat) :
    Describes (fun _ => none) (.empty moduleName depthLimit) where
  computes _ _ hr := nomatch hr
  live _ known := nomatch known

theorem Describes.eq_none (describes : env.Describes a) {name : String} (named : name ≠ "")
    (unnamed : a.lookup name = none) : env name = none := by
  rcases lookup_eq_none_iff.1 unnamed with empty | fresh
  · exact absurd empty named
  cases known : env name with
  | none => rfl
  | some m =>
    obtain ⟨h, r, hr, eq⟩ := describes.live name (by rw [known]; rfl)
    exact absurd eq (fresh h r hr)

theorem Describes.isSome (describes : env.Describes a) {name : String}
    (named : a.lookup name = some h) : (env name).isSome := by
  obtain ⟨r, hr, rfl⟩ := routine?_of_lookup named
  obtain ⟨m, known, -⟩ := describes.computes h r hr (lookup_eq_some_iff.1 named).1
  rw [known]
  rfl

/-- New routines without a name change nothing for an environment. -/
theorem Describes.grows (describes : env.Describes a) (grows : a.Grows b)
    (unique : b.UniqueNames)
    (old : ∀ h r, b.routine? h = some r → r.name ≠ "" → a.routine? h = some r) :
    env.Describes b where
  computes h r hr named := by
    obtain ⟨m, known, computes⟩ := describes.computes h r (old h r hr named) named
    exact ⟨m, known, computes.grows grows unique⟩
  live name known := by
    obtain ⟨h, r, hr, eq⟩ := describes.live name known
    obtain ⟨s, hs, completes⟩ := grows h r hr
    exact ⟨h, s, hs, completes.name_eq.trans eq⟩

theorem Describes.keeps (describes : env.Describes a) (keeps : a.Keeps b)
    (unique : b.UniqueNames) : env.Describes b :=
  describes.grows keeps.grows unique fun _ _ hr _ => keeps.routine?_eq ▸ hr

theorem Describes.define {m : Meaning} (describes : env.Describes a) (grows : a.Grows b)
    (unique : b.UniqueNames) (hr : b.routine? h = some r) (computes : b.Computes r m)
    (old : ∀ k s, b.routine? k = some s → k ≠ h → a.routine? k = some s) :
    (env.define r.name m).Describes b where
  computes k s hs named := by
    by_cases same : k = h
    · subst same
      rw [hr] at hs
      cases hs
      exact ⟨m, if_pos rfl, computes⟩
    · obtain ⟨m', known, computes'⟩ := describes.computes k s (old k s hs same) named
      have other : s.name ≠ r.name := fun eq => same (unique k h s r hs hr eq named)
      exact ⟨m', (if_neg other).trans known, computes'.grows grows unique⟩
  live name known := by
    by_cases same : name = r.name
    · exact ⟨h, r, hr, same.symm⟩
    · have before : (env.define r.name m) name = env name := if_neg same
      rw [before] at known
      obtain ⟨k, s, hs, eq⟩ := describes.live name known
      obtain ⟨u, hu, completes⟩ := grows k s hs
      exact ⟨k, u, hu, completes.name_eq.trans eq⟩

theorem Describes.defines (describes : env.Describes a) (defines : a.Defines d h c)
    (numbered : a.Numbered) (consistent : a.Consistent) :
    (env.define d.proto.name (.defined d.proto.params d.body)).Describes c := by
  obtain ⟨r, hr, name, computes⟩ := defines.computes numbered consistent.unique
  rw [← name]
  refine describes.define defines.grows (defines.consistent consistent).unique hr computes ?_
  intro k s hs ne
  obtain ⟨declares, here, -, -, -, rfl, -⟩ := defines
  rw [routine?_fill here, if_neg ne] at hs
  exact (declares.elsewhere ne).symm.trans hs

/-- A declaration makes a name that means nothing a function of the host. -/
theorem Describes.declares (describes : env.Describes a) (declares : a.Declares p h b)
    (named : p.name ≠ "") (consistent : a.Consistent) :
    (if (env p.name).isSome then env else env.define p.name .external).Describes b := by
  have unique := declares.unique consistent.unique
  have grows := declares.grows
  cases declares with
  | found found count =>
    rw [if_pos (describes.isSome found)]
    exact describes
  | new unnamed =>
    rw [describes.eq_none named unnamed, Option.isSome_none, if_neg Bool.false_ne_true]
    have hr : (a.declared p.name p.params).routine? a.slots.size =
        some (a.newRoutine p.name p.params) := by
      rw [routine?_declared, if_pos rfl]
    refine describes.define (r := a.newRoutine p.name p.params) grows unique hr
      (.external rfl) ?_
    intro k s hs ne
    rwa [routine?_declared, if_neg ne] at hs

/-! ### Calls -/

/-- Calling a function by its name and calling its routine come to the same, `depth` deep
    with `left` more calls to go. -/
theorem Describes.call_matches (describes : env.Describes a) {left depth : Nat}
    (sum : depth + left = a.depthLimit) :
    ∀ name count h, a.callees name count h → ∀ args, args.length = count →
      (env.call a.depthLimit depth name args).Matches (a.callRoutine left h args) := by
  induction left generalizing depth with
  | zero =>
    intro name count h found args length
    rw [Environment.call, if_neg (by omega)]
    exact fun written => .tooDeep a.depthLimit
  | succ left ih =>
    intro name count h found args length
    obtain ⟨named, arity⟩ := found
    obtain ⟨r, hr, rfl⟩ := routine?_of_lookup named
    obtain ⟨m, known, computes⟩ := describes.computes h r hr (lookup_eq_some_iff.1 named).1
    rw [Environment.call, if_pos (by omega), known, callRoutine, hr]
    cases computes with
    | external bodiless =>
      simp only [bodiless]
      exact Interpretation.matches_host r.name args
    | defined paramCount numbered code has =>
      simp only [has]
      have given : r.values.length = args.length := by
        rw [← numbered.count, length, ← arity]
        simp [Assembly.arity, hr]
      have deeper : depth + 1 + left = a.depthLimit := by omega
      exact code.matches_body r.name (ih deeper) (paramCount.trans numbered.count) given
        numbered.distinct numbered.below

end Environment

end Reckon
