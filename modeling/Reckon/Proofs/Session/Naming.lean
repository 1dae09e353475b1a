/-
  Written names in sessions.

  Sessions over sources name parameters after identifiers that were scanned, and those are
  words.  `OverSources` are the sessions whose assembly was built from sources alone, by the
  session itself or by others before it.  What a routine of such an assembly declares and
  computes is written apart but for clashes of parameters, which there are.

  The main statement is `written_apart`.
-/
import Reckon.Proofs.Assembly.Naming
import Reckon.Proofs.Grammar.Rooting
import Reckon.Proofs.Session.Stability
import Reckon.Proofs.Token.Layout

namespace Reckon

/-! ### Words that were read -/

def Cursor.Spelled (c : Cursor) : Prop :=
  ∀ t ∈ c.ahead, t.kind = .identifier → IsWord t.text.toList

def Prototype.Spelled (p : Prototype) : Prop := ∀ x ∈ p.params, IsWord x.toList

theorem Cursor.Spelled.of_suffix {c c' : Cursor} (spelled : c.Spelled)
    (left : c'.ahead <:+ c.ahead) : c'.Spelled :=
  fun t member => spelled t (left.subset member)

theorem Cursor.spelled_ofSource (source file : String) : (ofSource source file).Spelled := by
  obtain ⟨tokens, eq, -, -⟩ := scanned_pieces file 0 source.toList
  rw [ofSource_eq eq]
  intro t member identifier
  have scanned : t ∈ tokenize source file := by
    rw [tokenize, eq]
    exact List.mem_append_left _ member
  have among : t ∈ written (tokenize source file) := by
    rw [written, List.mem_filter, identifier]
    exact ⟨scanned, rfl⟩
  have spells := (tokenize_written source file).1 t among
  rw [identifier] at spells
  exact spells.classed

namespace Parse

variable {c c' : Cursor} {p : Prototype} {d : Definition} {table : OperatorTable}

theorem spelled_of_prototype (spelled : c.Spelled) (read : prototype.outcome c = (.ok p, c')) :
    p.Spelled := by
  obtain ⟨taken, ahead, word⟩ := word_of_prototype read
  obtain ⟨named, opens, identifiers, closes⟩ := word
  intro x member
  obtain ⟨t, among, rfl⟩ := List.mem_map.1 member
  refine spelled t ?_ (identifiers t among)
  rw [ahead]
  simp [among]

theorem spelled_of_external (spelled : c.Spelled) (read : external.outcome c = (.ok p, c')) :
    p.Spelled :=
  spelled_of_prototype (spelled.of_suffix (List.tail_suffix c.ahead)) (prototype_of_external read)

theorem spelled_of_definition (spelled : c.Spelled)
    (read : (definition table).outcome c = (.ok d, c')) : d.proto.Spelled := by
  obtain ⟨between, prototyped⟩ := prototype_of_definition read
  exact spelled_of_prototype (spelled.of_suffix (List.tail_suffix c.ahead)) prototyped

end Parse

/-! ### Words that parameters are named after -/

namespace Assembly

variable {a b : Assembly} {h : Handle} {p : Prototype} {d : Definition}

def Spelled (a : Assembly) : Prop :=
  ∀ h r, a.routine? h = some r → ∀ x ∈ r.params, IsWord x.toList

theorem spelled_empty (moduleName : String) (depthLimit : Nat) :
    (empty moduleName depthLimit).Spelled :=
  fun _ _ hr => nomatch hr

theorem Keeps.spelled (keeps : a.Keeps b) (spelled : a.Spelled) : b.Spelled := by
  intro h r hr
  rw [keeps.routine?_eq] at hr
  exact spelled h r hr

theorem Declares.spelled (declares : a.Declares p h b) (spelled : a.Spelled)
    (words : p.Spelled) : b.Spelled := by
  cases declares with
  | found => exact spelled
  | new =>
    intro k r hr
    rw [routine?_declared] at hr
    split at hr
    · cases hr
      exact words
    · exact spelled k r hr

theorem Defines.spelled (defines : a.Defines d h b) (spelled : a.Spelled)
    (words : d.proto.Spelled) : b.Spelled := by
  obtain ⟨declares, here, -, -, -, rfl, -⟩ := defines
  have before := declares.spelled spelled words
  intro k r hr
  rw [routine?_fill here] at hr
  split at hr
  · cases hr
    exact fun x member => before _ _ here x member
  · exact before k r hr

end Assembly

/-! ### Sessions over sources -/

namespace Session

open Assembly

variable {s s' : Session Assembly Value} {o : Outcome} {h : Handle} {r : Routine}

/-- The sessions over sources, on a fresh assembly or where another one is over. -/
inductive OverSources : Session Assembly Value → Prop where
  | fresh {s : Session Assembly Value} {source file : String} (fresh : Fresh id s)
    (cursor : s.cursor = .ofSource source file) : OverSources s
  | next {s s' : Session Assembly Value} {source file : String} (before : OverSources s)
    (same : s'.generator = s.generator) (cursor : s'.cursor = .ofSource source file) :
    OverSources s'
  | act {s s' : Session Assembly Value} {o : Outcome} (before : OverSources s)
    (act : Act target s (o, s')) : OverSources s'

theorem spelled_of_act {done : Outcome × Session Assembly Value} (cursor : s.cursor.Spelled)
    (spelled : s.generator.target.Spelled) (act : Act target s done) :
    done.2.generator.target.Spelled := by
  cases handles_of_act act with
  | skipped => exact spelled
  | refused => exact spelled
  | @definition d c read =>
    have words := Parse.spelled_of_definition cursor read
    have defined := (Gen.definition_outcome unreliable_target d s.generator).2
    unfold generateDefinition
    split
    · rename_i generated
      rw [generated] at defined
      exact Defines.spelled defined spelled words
    · rename_i generated
      rw [generated] at defined
      exact Keeps.spelled defined spelled
  | @external p c read =>
    have words := Parse.spelled_of_external cursor read
    have declared := (Gen.prototype_outcome unreliable_target p s.generator).2
    unfold generateExternal
    split
    · rename_i generated
      rw [generated] at declared
      exact Declares.spelled declared spelled words
    · rename_i e g generated
      rw [generated] at declared
      have same : g.target = s.generator.target := declared
      rw [← same] at spelled
      exact spelled
  | @expression d c read =>
    have nameless : d.proto.name = "" := by
      rw [Parse.name_of_topLevel read]
      rfl
    have keeps := generateExpression_keeps unreliable_target { s with cursor := c } nameless
    exact Keeps.spelled keeps spelled

structure Worded (s : Session Assembly Value) : Prop where
  settled : s.generator.target.Settled
  spelled : s.generator.target.Spelled
  cursor : s.cursor.Spelled

theorem OverSources.worded (reached : s.OverSources) : s.Worded := by
  induction reached with
  | @fresh s source file fresh cursor =>
    obtain ⟨moduleName, depthLimit, empty⟩ := fresh.target
    have same : s.generator.target = .empty moduleName depthLimit := empty
    refine ⟨settled_of_fresh fresh .start, ?_, cursor ▸ Cursor.spelled_ofSource _ _⟩
    rw [same]
    exact spelled_empty moduleName depthLimit
  | next _ same cursor ih =>
    refine ⟨?_, ?_, cursor ▸ Cursor.spelled_ofSource _ _⟩
    · rw [same]
      exact ih.settled
    · rw [same]
      exact ih.spelled
  | act _ act ih =>
    exact ⟨settled_of_act ih.settled act, spelled_of_act ih.cursor ih.spelled act,
      ih.cursor.of_suffix (ahead_of_act act)⟩

/-- In every state of sessions over sources, two values of a live function are written alike if
    they are parameters that clash, and not otherwise; so all are written apart if no parameter
    has the name of another.  In the signature the parameters are written as where they are
    used. -/
theorem written_apart (reached : s.OverSources) (alive : (h, r) ∈ s.generator.target.live) :
    (∀ v ∈ r.defined, ∀ w ∈ r.defined, v ≠ w →
      (Routine.valueName r.paramNames v = Routine.valueName r.paramNames w ↔
        r.Clash v w ∨ r.Clash w v)) ∧
    (r.params.Nodup → (r.defined.map (Routine.valueName r.paramNames)).Nodup) ∧
    Routine.signature r.paramNames =
      ", ".intercalate (r.values.map fun v => "double " ++ Routine.valueName r.paramNames v) := by
  have worded := reached.worded
  have alive := mem_live.1 alive
  have ordered := worded.settled.built.ordered h r alive
  have words := worded.spelled h r alive
  exact ⟨fun v hv w hw ne => ordered.valueName_eq_iff words hv hw ne,
    ordered.nodup_valueName words, ordered.signature_eq⟩

/-- A repeated parameter, and one that is named as the repeat is written. -/
def clashing : Session Assembly Value :=
  ((ofSource "def f(x x x1) x" "" (.empty "" 8) {}).definition target).2

theorem overSources_clashing : clashing.OverSources := by
  have begins : OverSources (ofSource "def f(x x x1) x" "" (.empty "" 8) {}) :=
    .fresh ⟨rfl, _, _, rfl⟩ rfl
  exact .act begins .definition

/-- Its function, with the values of the repeat and of the last parameter. -/
theorem values_clashing : ∃ h r v w, (h, r) ∈ clashing.generator.target.live ∧
    v ∈ r.defined ∧ w ∈ r.defined ∧ v ≠ w ∧
      Routine.valueName r.paramNames v = Routine.valueName r.paramNames w := by
  have found : (clashing.generator.target.live.any fun entry =>
      entry.2.defined.any fun v => entry.2.defined.any fun w =>
        v ≠ w ∧ Routine.valueName entry.2.paramNames v =
          Routine.valueName entry.2.paramNames w) = true := by
    decide +kernel
  obtain ⟨⟨h, r⟩, alive, found⟩ := List.any_eq_true.1 found
  obtain ⟨v, hv, found⟩ := List.any_eq_true.1 found
  obtain ⟨w, hw, found⟩ := List.any_eq_true.1 found
  obtain ⟨ne, alike⟩ := of_decide_eq_true found
  exact ⟨h, r, v, w, alive, hv, hw, ne, alike⟩

theorem written_apart_clashing : ∃ h r v w, (h, r) ∈ clashing.generator.target.live ∧
    v ∈ r.defined ∧ w ∈ r.defined ∧ v ≠ w ∧ (r.Clash v w ∨ r.Clash w v) := by
  obtain ⟨h, r, v, w, alive, hv, hw, ne, alike⟩ := values_clashing
  have clash := ((written_apart overSources_clashing alive).1 v hv w hw ne).1 alike
  exact ⟨h, r, v, w, alive, hv, hw, ne, clash⟩

/-- Different values are not always written apart. -/
theorem values_written_alike : ¬ ∀ s : Session Assembly Value, s.OverSources →
    ∀ h r, (h, r) ∈ s.generator.target.live → ∀ v ∈ r.defined, ∀ w ∈ r.defined, v ≠ w →
      Routine.valueName r.paramNames v ≠ Routine.valueName r.paramNames w := by
  intro apart
  obtain ⟨h, r, v, w, alive, hv, hw, ne, alike⟩ := values_clashing
  exact apart clashing overSources_clashing h r alive v hv w hw ne alike

end Session

end Reckon
