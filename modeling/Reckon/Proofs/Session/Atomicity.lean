/-
  Constructs are atomic.

  `Change` says what a construct may do to the ordered list of live routines, by its
  outcome: a definition adds one routine with a body or gives a body to the one routine of
  its name, a declaration adds one routine without a body or changes nothing, and every
  other outcome leaves the list as it was.

  The main statement is `change_of_act`: in every run over a fresh assembly, whichever
  calls of the target fail and wherever in a construct they do, each act changes the list
  in one of these ways.  No function without a name is alive after it, unless an identifier
  without a text was handed to the session (`nameless_definition_stays`).
-/
import Reckon.Proofs.Session.Reach

namespace Reckon

/-- What one construct may do to the list of live routines, by its outcome. -/
inductive Change (before : List (Handle × Routine)) :
    Outcome → List (Handle × Routine) → Prop where
  /-- A definition adds a routine with a body; its handle and its name are new. -/
  | added {h : Handle} {r : Routine} (body : r.body.isSome)
    (newHandle : ∀ entry ∈ before, entry.1 < h)
    (newName : r.name ≠ "" → ∀ entry ∈ before, entry.2.name ≠ r.name) (code : String) :
    Change before (.definition r.name code) (before ++ [(h, r)])
  /-- A definition gives a body to the one routine of its name, which had none. -/
  | completed {front back : List (Handle × Routine)} {h : Handle} {r : Routine}
    (present : before = front ++ (h, r) :: back) (bodiless : r.body = none)
    (only : ∀ entry ∈ front ++ back, entry.2.name ≠ r.name)
    (body : Array Instruction) (code : String) :
    Change before (.definition r.name code)
      (front ++ (h, { r with body := some body }) :: back)
  /-- A declaration adds a routine without a body; its handle and its name are new. -/
  | declared {h : Handle} {r : Routine} (bodiless : r.body = none)
    (newHandle : ∀ entry ∈ before, entry.1 < h)
    (newName : r.name ≠ "" → ∀ entry ∈ before, entry.2.name ≠ r.name) (code : String) :
    Change before (.external r.name code) (before ++ [(h, r)])
  /-- A declaration of a name that is there changes nothing. -/
  | repeated {name : String} (present : ∃ entry ∈ before, entry.2.name = name)
    (code : String) : Change before (.external name code) before
  | expression (code : String) (value : Option Float) (output : String) :
    Change before (.expression code value output) before
  | skipped : Change before .skipped before
  | failed (d : Diagnostic) : Change before (.failed d) before

namespace Assembly

variable {a b c : Assembly} {h : Handle} {r : Routine} {p : Prototype} {d : Definition}
variable {o : Outcome}

theorem lt_size_of_mem_live {entry : Handle × Routine} (member : entry ∈ a.live) :
    entry.1 < a.slots.size :=
  lt_size_of_routine? (mem_live.1 member)

/-- A name that the search does not find is no live routine's. -/
theorem ne_of_mem_live {name : String} (unnamed : a.lookup name = none) (named : name ≠ "") :
    ∀ entry ∈ a.live, entry.2.name ≠ name := by
  intro entry member
  rcases lookup_eq_none_iff.1 unnamed with empty | fresh
  · exact absurd empty named
  · exact fresh entry.1 entry.2 (mem_live.1 member)

/-- Where names are unique, the other live routines have other names. -/
theorem UniqueNames.only {front back : List (Handle × Routine)} (unique : a.UniqueNames)
    (named : r.name ≠ "") (live : a.live = front ++ (h, r) :: back) :
    ∀ entry ∈ front ++ back, entry.2.name ≠ r.name := by
  intro entry member same
  have order := a.pairwise_live
  rw [live, List.pairwise_append, List.pairwise_cons] at order
  obtain ⟨-, ⟨after, -⟩, before⟩ := order
  have here : a.routine? h = some r := mem_live.1 (live ▸ by simp)
  have there : a.routine? entry.1 = some entry.2 := by
    refine mem_live.1 (live ▸ ?_)
    rcases List.mem_append.1 member with left | right
    · exact List.mem_append_left _ left
    · exact List.mem_append_right _ (List.mem_cons_of_mem _ right)
  have eq : entry.1 = h := unique _ _ _ _ there here same (same ▸ named)
  rcases List.mem_append.1 member with left | right
  · exact Nat.lt_irrefl h (eq ▸ before entry left (h, r) (by simp))
  · exact Nat.lt_irrefl h (eq ▸ after entry right)

theorem Defines.change (defines : a.Defines d h c) (unique : a.UniqueNames) (code : String) :
    Change a.live (.definition d.proto.name code) c.live := by
  obtain ⟨declares, here, bodiless, -, -, rfl, -⟩ := defines
  cases declares with
  | found named count =>
    obtain ⟨s, hs, name⟩ := routine?_of_lookup named
    rw [here] at hs
    cases hs
    obtain ⟨front, back, live, after⟩ := live_fill here
    rw [after, ← name]
    refine .completed live bodiless (unique.only ?_ live) _ code
    exact name ▸ (lookup_eq_some_iff.1 named).1
  | new unnamed =>
    rw [routine?_declared, if_pos rfl] at here
    cases here
    rw [live_fill_declared]
    exact .added (r := { a.newRoutine d.proto.name d.proto.params with body := _ }) rfl
      (fun entry => lt_size_of_mem_live) (fun named => ne_of_mem_live unnamed named) code

theorem Declares.change (declares : a.Declares p h b) (code : String) :
    Change a.live (.external p.name code) b.live := by
  cases declares with
  | found named count =>
    obtain ⟨s, hs, name⟩ := routine?_of_lookup named
    exact .repeated ⟨(h, s), mem_live.2 hs, name⟩ code
  | new unnamed =>
    rw [live_declared]
    exact .declared (r := a.newRoutine p.name p.params) rfl
      (fun entry => lt_size_of_mem_live) (fun named => ne_of_mem_live unnamed named) code

/-- The effect of a construct, seen on the live routines in their order. -/
theorem Effect.change (effect : a.Effect o b) (unique : a.UniqueNames) :
    Change a.live o b.live := by
  cases effect with
  | definition defines code => exact defines.change unique code
  | external declares code => exact declares.change code
  | expression keeps => exact keeps.live_eq ▸ .expression _ _ _
  | skipped => exact .skipped
  | failed keeps => exact keeps.live_eq ▸ .failed _

end Assembly

/-- Where what is defined and declared has a name, no live routine is nameless. -/
theorem Change.named {before after : List (Handle × Routine)} {o : Outcome}
    (change : Change before o after) (outcome : o.Named)
    (named : ∀ entry ∈ before, entry.2.name ≠ "") : ∀ entry ∈ after, entry.2.name ≠ "" := by
  cases change with
  | added | declared =>
    intro entry member
    rcases List.mem_append.1 member with old | new
    · exact named entry old
    · rw [List.mem_singleton.1 new]
      exact outcome
  | @completed front back h r present =>
    intro entry member
    rcases List.mem_append.1 member with left | right
    · exact named entry (present ▸ List.mem_append_left _ left)
    · rcases List.mem_cons.1 right with rfl | right
      · exact outcome
      · exact named entry (present ▸ List.mem_append_right _ (List.mem_cons_of_mem _ right))
  | repeated | expression | skipped | failed => exact named

namespace Session

variable {σ : Type} {t : Target σ Value Handle} {view : σ → Assembly}
variable {s s' s₀ : Session σ Value} {o : Outcome}

theorem change_of_act (ht : t.Unreliable view) (fresh : s₀.Fresh view)
    (reaches : Reaches t s₀ s) (act : Act t s (o, s')) :
    Change (view s.generator.target).live o (view s'.generator.target).live :=
  (effect_of_act ht act).1.change (consistent_of_reaches ht fresh reaches).unique

theorem live_named_of_reaches (ht : t.Unreliable view) (fresh : s₀.Fresh view)
    (named : s₀.cursor.Named) (reaches : Reaches t s₀ s) :
    ∀ entry ∈ (view s.generator.target).live, entry.2.name ≠ "" := by
  induction reaches with
  | start =>
    obtain ⟨moduleName, depthLimit, target⟩ := fresh.target
    rw [target]
    exact fun entry member => nomatch member
  | act before act ih =>
    exact (change_of_act ht fresh before act).named
      (named_of_act (named_of_reaches named before) act) ih

theorem mem_live_of_reaches (ht : t.Unreliable view) (reaches : Reaches t s s')
    {entry : Handle × Routine} (member : entry ∈ (view s.generator.target).live)
    (body : entry.2.body.isSome) : entry ∈ (view s'.generator.target).live := by
  obtain ⟨r, hr, completes⟩ := grows_of_reaches ht reaches _ _ (Assembly.mem_live.1 member)
  cases completes with
  | same => exact Assembly.mem_live.2 hr
  | body bodiless code => simp [bodiless] at body

/-- Every construct is atomic on the ordered list of live functions, whichever calls of the
    target fail: a definition adds one function or completes one, a declaration adds one or
    changes nothing, and every other outcome leaves the list exactly as it was.  After it
    no name is bound and, unless an identifier without a name was read, no anonymous
    function is alive.  Hence a function with a body stays as it is for the rest of the
    run. -/
theorem construct_atomic (ht : t.Unreliable view) (fresh : s₀.Fresh view)
    (reaches : Reaches t s₀ s) (act : Act t s (o, s')) :
    Change (view s.generator.target).live o (view s'.generator.target).live ∧
      s'.generator.scope = [] ∧
      (s₀.cursor.Named → ∀ entry ∈ (view s'.generator.target).live, entry.2.name ≠ "") ∧
      ∀ u, Reaches t s u → ∀ entry ∈ (view s.generator.target).live,
        entry.2.body.isSome → entry ∈ (view u.generator.target).live := by
  have after : Reaches t s₀ s' := .act reaches act
  refine ⟨change_of_act ht fresh reaches act, scope_of_reaches ht fresh after, ?_, ?_⟩
  · intro named
    exact live_named_of_reaches ht fresh named after
  · intro u later entry member body
    exact mem_live_of_reaches ht later member body

/-- The second addition of this run fails, in the middle of a body for a function that was
    declared before. -/
theorem construct_atomic_second_addition_fails :
    let plan := fun call => if call = 9 then some (TargetError.builder "out of memory") else none
    let t := Assembly.target.interrupted plan
    let s₀ : Session (Counted Assembly) Value :=
      .ofSource "def f(x) x+1 extern g(y) def g(y) f(y+2)" "" ⟨.empty "" 256, 0⟩ {}
    let s := ((s₀.definition t).2.external t).2
    Change s.generator.target.inner.live (s.definition t).1
        (s.definition t).2.generator.target.inner.live ∧
      (s.definition t).2.generator.scope = [] ∧
      ∀ entry ∈ (s.definition t).2.generator.target.inner.live, entry.2.name ≠ "" := by
  intro plan t s₀ s
  have reaches : Reaches t s₀ s := .act (.act .start .definition) .external
  obtain ⟨change, scope, named, -⟩ :=
    construct_atomic (Assembly.unreliable_target.interrupted plan) ⟨rfl, _, _, rfl⟩ reaches
      .definition
  exact ⟨change, scope, named (Cursor.named_ofSource _ _)⟩

/-- A definition of which the identifier has no text, as no source has one. -/
def nameless : Session Assembly Value :=
  let tokens : List Token := [⟨.defKeyword, "def", .within "input" 0 3⟩,
    ⟨.identifier, "", .within "input" 3 3⟩, ⟨.char '(', "(", .within "input" 4 5⟩,
    ⟨.char ')', ")", .within "input" 5 6⟩, ⟨.number, "1", .within "input" 7 8⟩]
  .ofCursor (.ofTokens "input" tokens) .standard (.empty "toy jit" 256) {}

/-- Without a name the function that a definition adds stays alive like any other. -/
theorem nameless_definition_stays :
    nameless.Fresh id ∧ ¬ nameless.cursor.Named ∧
      ∃ o s, nameless.step Assembly.target = some (o, s) ∧
        ¬ ∀ entry ∈ s.generator.target.live, entry.2.name ≠ "" := by
  have fresh : nameless.Fresh id := ⟨rfl, _, _, rfl⟩
  have unnamed : ¬ nameless.cursor.Named := by
    intro named
    exact named ⟨.identifier, "", .within "input" 3 3⟩ (by decide) rfl rfl
  have alive : ((nameless.definition Assembly.target).2.generator.target.live.any
      fun entry => entry.2.name = "") = true := by
    decide +kernel
  obtain ⟨entry, member, name⟩ := List.any_eq_true.1 alive
  refine ⟨fresh, unnamed, _, _, rfl, fun named => ?_⟩
  exact named entry member (of_decide_eq_true name)

end Session

end Reckon
