/-
  Generation into related assemblies.

  What stands against a construct can be read off the signatures of the live functions, and
  those are the same in related assemblies.  So a construct fails in both or in neither, and
  then for the same reason.  Where it succeeds, what comes to be there is the code of one
  expression under two numberings, and a renaming that carries the old one on relates the
  assemblies again (`Corresponds`).
-/
import Reckon.Proofs.Generate.Numbering
import Reckon.Proofs.Generate.Verdict

namespace Reckon

theorem Scope.value?_ofParams_map {V W : Type} (f : V → W) (params : List String)
    (values : List V) (name : String) :
    (Scope.ofParams params (values.map f)).value? name =
      ((Scope.ofParams params values).value? name).map f := by
  have lookup : ∀ entries : List (String × V),
      (entries.map (Prod.map id f)).lookup name = (entries.lookup name).map f := by
    intro entries
    induction entries with
    | nil => rfl
    | cons entry rest ih =>
      obtain ⟨key, v⟩ := entry
      simp only [List.map_cons, Prod.map, id, List.lookup_cons, ih]
      cases name == key <;> rfl
  rw [Scope.value?_ofParams, Scope.value?_ofParams, ← lookup, List.map_reverse, List.zip_map_right]

theorem Judged.same {α β : Type} {complaints : List Diagnostic} {result : Except Diagnostic α}
    {result' : Except Diagnostic β} (judged : Judged complaints result)
    (judged' : Judged complaints result') :
    (∃ x y, result = .ok x ∧ result' = .ok y) ∨ ∃ d, result = .error d ∧ result' = .error d := by
  cases complaints with
  | nil =>
    obtain ⟨x, ok⟩ := judged
    obtain ⟨y, ok'⟩ := judged'
    exact .inl ⟨x, y, ok, ok'⟩
  | cons d others => exact .inr ⟨d, judged, judged'⟩

namespace Assembly

variable {ρ : Renaming} {a b c c' : Assembly} {h k : Handle} {d : Definition} {p : Prototype}

namespace RelatedBy

/-! ### The same complaints -/

theorem taken (related : RelatedBy ρ a b) : b.taken = a.taken := by
  funext name
  unfold Assembly.taken
  rw [related.live, List.find?_map, Option.map_map]
  rfl

theorem signatures (related : RelatedBy ρ a b) (p : Prototype) :
    b.signatures p = a.signatures p := by
  unfold Assembly.signatures
  rw [related.taken]

theorem complaints (related : RelatedBy ρ a b) (unique : b.UniqueNames) (d : Definition) :
    Gen.complaints b d = Gen.complaints a d := by
  unfold Gen.complaints
  rw [related.lookup unique, related.signatures]
  cases a.lookup d.proto.name with
  | none => rfl
  | some h => simp only [Option.map_some, related.arity, related.hasBody]

/-! ### What stays as it is -/

/-- Whether assemblies are related depends on what the renaming does to live routines. -/
theorem congr {σ : Renaming} (related : RelatedBy ρ a b) (agrees : σ.AgreesOn ρ a) :
    RelatedBy σ a b :=
  ⟨related.live.trans (List.map_congr_left fun e member => (agrees e member).symm),
    related.depthLimit⟩

theorem keeps (related : RelatedBy ρ a b) (keeps : a.Keeps c) (keeps' : b.Keeps c') :
    RelatedBy ρ c c' :=
  ⟨by rw [keeps.live_eq, keeps'.live_eq, related.live],
    by rw [keeps.depthLimit, keeps'.depthLimit, related.depthLimit]⟩

end RelatedBy

/-! ### What comes to be there -/

theorem Declares.nextValue_le (declares : a.Declares p h b) :
    a.nextValue ≤ b.nextValue ∧ b.nextValue ≤ a.nextValue + p.arity := by
  cases declares with
  | found => exact ⟨Nat.le_refl _, Nat.le_add_right _ _⟩
  | new => exact ⟨Nat.le_add_right _ _, Nat.le_refl _⟩

/-- Two codes for the body of a definition correspond under the renaming, where the functions
    that it may call correspond. -/
theorem RelatedBy.code {count next next' : Nat} {b' : Assembly} {r : Routine}
    {is is' : List Instruction} {v v' : Value} (related : RelatedBy ρ b b')
    (unique : b'.UniqueNames) (continues : Continues ρ a c count)
    (above : a.nextValue ≤ b.nextValue)
    (starts : b'.nextValue = c.nextValue + (b.nextValue - a.nextValue))
    (upTo : next ≤ a.nextValue + count)
    (code : Code b.callees (.ofParams d.proto.params r.values) b.nextValue d.body is v next)
    (code' : Code b'.callees (.ofParams d.proto.params (r.renamed ρ).values) b'.nextValue d.body
      is' v' next') :
    is' = is.map (·.renamed ρ) ∧ v' = v.renamed ρ := by
  have called : ∀ name count h k, b.callees name count h → b'.callees name count k →
      k = ρ.handle h := by
    intro name count h k called called'
    obtain ⟨h', ⟨found', -⟩, rfl⟩ := (related.callees unique).1 called'
    rw [called.1] at found'
    cases found'
    rfl
  have bound : ∀ name v w, (Scope.ofParams d.proto.params r.values).value? name = some v →
      (Scope.ofParams d.proto.params (r.renamed ρ).values).value? name = some w →
        w = v.renamed ρ := by
    intro name v w bound bound'
    rw [Routine.values_renamed, Scope.value?_ofParams_map, bound] at bound'
    cases bound'
    rfl
  obtain ⟨instructions, value, -⟩ :=
    code.renamed called bound continues.value code' above upTo starts
  exact ⟨instructions, value⟩

theorem Defines.alive (defines : a.Defines d h c) : ∃ r, c.routine? h = some r := by
  obtain ⟨-, here, -, -, -, rfl, -⟩ := defines
  exact ⟨_, by rw [routine?_fill here, if_pos rfl]⟩

/-- What is defined in both corresponds. -/
theorem RelatedBy.defines (related : RelatedBy ρ a b) (consistent : a.Consistent)
    (consistent' : b.Consistent) (ordered : a.Ordered) (ordered' : b.Ordered)
    (defines : a.Defines d h c) (defines' : b.Defines d k c') :
    ∃ σ : Renaming, σ.AgreesOn ρ a ∧ k = σ.handle h ∧ RelatedBy σ c c' := by
  obtain @⟨a₁, r, is, v, next, declares, here, -, code, -, rfl, -⟩ := defines
  obtain @⟨b₁, s, is', v', next', declares', here', -, code', -, rfl, -⟩ := defines'
  -- As many numbers are renamed as the parameters and the code can take.
  let count := d.proto.arity + (next - a.nextValue)
  have agrees := related.onward_agreesOn consistent ordered ordered' count
  refine ⟨ρ.onward a b count, agrees, ?_⟩
  have between := declares.nextValue_le
  have continues := continues_onward ρ a b count
  obtain ⟨b₂, again, related₁, starts⟩ :=
    (related.congr agrees).declares consistent'.unique continues (Nat.le_add_right _ _) declares
  obtain ⟨rfl, rfl⟩ := declares'.eq again
  have renamed := related₁.routine? h
  rw [here, here', Option.map_some, Option.some.injEq] at renamed
  subst renamed
  obtain ⟨rfl, rfl⟩ := related₁.code (declares'.unique consistent'.unique) continues between.1
    starts (by omega) code code'
  refine ⟨rfl, ?_⟩
  have written := @RelatedBy.fill _ _ _ _ _ (is ++ [.ret v]) related₁ here next next'
  rw [List.map_append] at written
  exact written

end Assembly

namespace Gen

open Assembly

/-- What became of one construct in two assemblies: the same error, or routines that
    correspond, instruction by instruction; and the assemblies afterwards are related. -/
inductive Corresponds (ρ : Renaming) :
    Except Diagnostic Handle × Generator Assembly Value →
      Except Diagnostic Handle × Generator Assembly Value → Prop where
  | made {h : Handle} {r : Routine} {g g' : Generator Assembly Value}
    (here : g.target.routine? h = some r)
    (there : g'.target.routine? (ρ.handle h) = some (r.renamed ρ))
    (related : RelatedBy ρ g.target g'.target) :
    Corresponds ρ (.ok h, g) (.ok (ρ.handle h), g')
  | refused (e : Diagnostic) {g g' : Generator Assembly Value}
    (related : RelatedBy ρ g.target g'.target) : Corresponds ρ (.error e, g) (.error e, g')

section

variable {ρ : Renaming} {g g' : Generator Assembly Value}
variable (related : RelatedBy ρ g.target g'.target)
variable (consistent : g.target.Consistent) (consistent' : g'.target.Consistent)
variable (ordered : g.target.Ordered) (ordered' : g'.target.Ordered)
include related consistent consistent' ordered ordered'

theorem prototype_corresponds (p : Prototype) :
    ∃ σ : Renaming, σ.AgreesOn ρ g.target ∧
      Corresponds σ ((prototype target p).outcome g) ((prototype target p).outcome g') := by
  obtain ⟨a, scope⟩ := g
  obtain ⟨b, scope'⟩ := g'
  have declared : ∀ {h c}, a.Declares p h c → ∃ σ : Renaming, σ.AgreesOn ρ a ∧
      Corresponds σ ((prototype target p).outcome ⟨a, scope⟩)
        ((prototype target p).outcome ⟨b, scope'⟩) := by
    intro h c declares
    have agrees := related.onward_agreesOn consistent ordered ordered' p.arity
    obtain ⟨c', declares', related', -⟩ := (related.congr agrees).declares consistent'.unique
      (continues_onward ρ a b p.arity) (Nat.le_refl _) declares
    obtain ⟨r, here, -⟩ := declares.here
    have there := related'.routine? h
    rw [here] at there
    rw [outcome_prototype declares, outcome_prototype declares']
    exact ⟨_, agrees, .made here there related'⟩
  cases named : a.lookup p.name with
  | none => exact declared (.new named)
  | some h =>
    by_cases count : a.arity h = p.arity
    · exact declared (.found named count)
    · have named' : b.lookup p.name = some (ρ.handle h) := by
        rw [related.lookup consistent'.unique, named, Option.map_some]
      have same := related.arity h
      rw [outcome_prototype_mismatch named count, outcome_prototype_mismatch named' (same ▸ count),
        same]
      exact ⟨ρ, fun _ _ => rfl, .refused _ related⟩

theorem definition_corresponds (d : Definition) :
    ∃ σ : Renaming, σ.AgreesOn ρ g.target ∧
      Corresponds σ ((definition target d).outcome g) ((definition target d).outcome g') := by
  have judged := definition_judged ordered consistent.unique d g.scope
  have judged' := definition_judged ordered' consistent'.unique d g'.scope
  rw [related.complaints consistent'.unique] at judged'
  obtain ⟨-, left⟩ := definition_outcome unreliable_target d g
  obtain ⟨-, right⟩ := definition_outcome unreliable_target d g'
  generalize (definition target d).outcome g = came at judged left ⊢
  generalize (definition target d).outcome g' = came' at judged' right ⊢
  obtain ⟨result, after⟩ := came
  obtain ⟨result', after'⟩ := came'
  obtain ⟨h, k, rfl, rfl⟩ | ⟨e, rfl, rfl⟩ := judged.same judged'
  · obtain ⟨σ, agrees, rfl, related'⟩ :=
      related.defines consistent consistent' ordered ordered' left right
    obtain ⟨r, here⟩ := Defines.alive left
    have there := related'.routine? h
    rw [here] at there
    exact ⟨σ, agrees, .made here there related'⟩
  · exact ⟨ρ, fun _ _ => rfl, .refused e (related.keeps left right)⟩

end

end Gen

end Reckon
