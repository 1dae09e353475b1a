/-
  Runs of a session.

  `Act` is one thing that a session can be told to do: to handle the next construct, or
  one of a kind whatever token is at hand.  `Reaches` closes it into runs.  `Handles` says
  what an act comes to once reading is done, and is what the theory of runs goes by.

  The main statement is `effect_of_act`: with an unreliable target, an act has one of the
  effects that constructs have on the assembly, and leaves no names bound.
-/
import Reckon.Proofs.Session.Effect
import Reckon.Proofs.Token.Placing

namespace Reckon

/-- Every identifier ahead has a name, as those that were scanned have. -/
def Cursor.Named (c : Cursor) : Prop :=
  ∀ t ∈ c.ahead, t.kind = .identifier → t.text ≠ ""

namespace Session

variable {σ V F : Type}

/-! ### Runs -/

inductive Act (t : Target σ V F) (s : Session σ V) : Outcome × Session σ V → Prop where
  | step {done : Outcome × Session σ V} (stepped : s.step t = some done) : Act t s done
  | definition : Act t s (s.definition t)
  | external : Act t s (s.external t)
  | expression : Act t s (s.expression t)

inductive Reaches (t : Target σ V F) (s : Session σ V) : Session σ V → Prop where
  | start : Reaches t s s
  | act {u v : Session σ V} {o : Outcome} (before : Reaches t s u) (act : Act t u (o, v)) :
    Reaches t s v

/-- The session `s` is fresh: no name is bound, and the target has built nothing yet. -/
structure Fresh (view : σ → Assembly) (s : Session σ V) : Prop where
  scope : s.generator.scope = []
  target : ∃ moduleName depthLimit, view s.generator.target = .empty moduleName depthLimit

/-- What an act comes to: a semicolon was skipped, reading was refused, or a construct was
    read and is generated. -/
inductive Handles (t : Target σ V F) (s : Session σ V) : Outcome × Session σ V → Prop where
  | skipped : Handles t s (.skipped, { s with cursor := s.cursor.advance })
  | refused {d : Diagnostic} {c : Cursor} (left : c.ahead <:+ s.cursor.ahead) :
    Handles t s (s.recover d c)
  | definition {d : Definition} {c : Cursor}
    (read : (Parse.definition s.table).outcome s.cursor = (.ok d, c)) :
    Handles t s (generateDefinition t { s with cursor := c } d)
  | external {p : Prototype} {c : Cursor}
    (read : Parse.external.outcome s.cursor = (.ok p, c)) :
    Handles t s (generateExternal t { s with cursor := c } p)
  | expression {d : Definition} {c : Cursor}
    (read : (Parse.topLevel s.table).outcome s.cursor = (.ok d, c)) :
    Handles t s (generateExpression t { s with cursor := c } d)

variable {t : Target σ V F} {s s' : Session σ V} {o : Outcome}

theorem forward_definition (table : OperatorTable) : (Parse.definition table).Forward :=
  Parse.forward_next.bind fun _ => Parse.forward_prototype.bind fun _ =>
    (Parse.forward_expression table).bind fun _ => Parse.forward_pure _

theorem forward_external : Parse.external.Forward :=
  Parse.forward_next.bind fun _ => Parse.forward_prototype

theorem handles_definition : Handles t s (s.definition t) := by
  have left := (forward_definition s.table s.cursor).1
  unfold Session.definition
  split
  · rename_i read
    exact .definition read
  · rename_i read
    rw [read] at left
    exact .refused left

theorem handles_external : Handles t s (s.external t) := by
  have left := (forward_external s.cursor).1
  unfold Session.external
  split
  · rename_i read
    exact .external read
  · rename_i read
    rw [read] at left
    exact .refused left

theorem handles_expression : Handles t s (s.expression t) := by
  have left := (Parse.forward_topLevel s.table s.cursor).1
  unfold Session.expression
  split
  · rename_i read
    exact .expression read
  · rename_i read
    rw [read] at left
    exact .refused left

theorem handles_of_act {done : Outcome × Session σ V} (act : Act t s done) :
    Handles t s done := by
  cases act with
  | definition => exact handles_definition
  | external => exact handles_external
  | expression => exact handles_expression
  | step stepped =>
    unfold step at stepped
    split at stepped
    · exact absurd stepped (by simp)
    · cases stepped
      exact .skipped
    · cases stepped
      exact handles_definition
    · cases stepped
      exact handles_external
    · cases stepped
      exact handles_expression

end Session

/-! ### Names that were read -/

theorem Cursor.current_mem {c : Cursor} (going : c.kind ≠ .eof) : c.current ∈ c.ahead := by
  cases ahead : c.ahead with
  | nil => exact absurd (by simp [Cursor.kind, Cursor.current, ahead, c.final_kind]) going
  | cons t rest => simp [Cursor.current, ahead]

theorem Cursor.Named.of_suffix {c c' : Cursor} (named : c.Named) (left : c'.ahead <:+ c.ahead) :
    c'.Named :=
  fun t member => named t (left.subset member)

theorem Parse.name_of_prototype {c c' : Cursor} {p : Prototype}
    (read : prototype.outcome c = (.ok p, c')) :
    c.kind = .identifier ∧ p.name = c.current.text := by
  unfold prototype at read
  rw [outcome_bind, outcome_expect] at read
  by_cases identifier : c.kind = .identifier
  · refine ⟨identifier, ?_⟩
    rw [if_pos identifier] at read
    simp only [outcome_bind] at read
    split at read
    · simp only [outcome_names] at read
      split at read
      · simp only [outcome_pure, Prod.mk.injEq, Except.ok.injEq] at read
        rw [← read.1]
      · cases read
    · cases read
  · rw [if_neg identifier] at read
    cases read

theorem Parse.name_ne_of_prototype {c c' : Cursor} {p : Prototype} (named : c.Named)
    (read : prototype.outcome c = (.ok p, c')) : p.name ≠ "" := by
  obtain ⟨identifier, name⟩ := name_of_prototype read
  rw [name]
  exact named _ (Cursor.current_mem (by simp [identifier])) identifier

theorem Cursor.Named.advance {c : Cursor} (named : c.Named) : c.advance.Named :=
  named.of_suffix (List.tail_suffix c.ahead)

/-- Behind the keyword of a definition its prototype was read. -/
theorem Parse.prototype_of_definition {table : OperatorTable} {c c' : Cursor} {d : Definition}
    (read : (definition table).outcome c = (.ok d, c')) :
    ∃ between, prototype.outcome c.advance = (.ok d.proto, between) := by
  unfold definition at read
  simp only [outcome_bind, outcome_next] at read
  split at read
  · rename_i p between prototyped
    split at read
    · simp only [outcome_pure, Prod.mk.injEq, Except.ok.injEq] at read
      rw [← read.1]
      exact ⟨between, prototyped⟩
    · cases read
  · cases read

theorem Parse.prototype_of_external {c c' : Cursor} {p : Prototype}
    (read : external.outcome c = (.ok p, c')) : prototype.outcome c.advance = (.ok p, c') := by
  unfold external at read
  rwa [outcome_bind, outcome_next] at read

theorem Parse.name_ne_of_definition {table : OperatorTable} {c c' : Cursor} {d : Definition}
    (named : c.Named) (read : (definition table).outcome c = (.ok d, c')) :
    d.proto.name ≠ "" := by
  obtain ⟨between, prototyped⟩ := prototype_of_definition read
  exact name_ne_of_prototype named.advance prototyped

theorem Parse.name_ne_of_external {c c' : Cursor} {p : Prototype} (named : c.Named)
    (read : external.outcome c = (.ok p, c')) : p.name ≠ "" :=
  name_ne_of_prototype named.advance (prototype_of_external read)

theorem Parse.name_of_topLevel {table : OperatorTable} {c c' : Cursor} {d : Definition}
    (read : (topLevel table).outcome c = (.ok d, c')) : d.proto = .anonymous d.body.span := by
  unfold topLevel at read
  rw [outcome_bind] at read
  split at read
  · simp only [outcome_pure, Prod.mk.injEq, Except.ok.injEq] at read
    rw [← read.1]
    rfl
  · cases read

/-! ### Names in a source -/

/-- In the cursor of a source every identifier has a name. -/
theorem Cursor.named_ofSource (source file : String) : (Cursor.ofSource source file).Named := by
  obtain ⟨tokens, eq, pieces, -⟩ := scanned_pieces file 0 source.toList
  rw [Cursor.ofSource_eq eq]
  intro t member _
  exact (pieces t member).nonempty

/-! ### Names along a run -/

def Outcome.Named : Outcome → Prop
  | .definition name _ | .external name _ => name ≠ ""
  | _ => True

namespace Session

section Names

variable {σ V F : Type} {t : Target σ V F} {s s' s₀ : Session σ V} {o : Outcome}

theorem ahead_of_act (act : Act t s (o, s')) : s'.cursor.ahead <:+ s.cursor.ahead := by
  generalize done : (o, s') = result at act
  have eq : s'.cursor = result.2.cursor := by rw [← done]
  rw [eq]
  cases handles_of_act act with
  | skipped => exact List.tail_suffix _
  | refused left => exact (List.tail_suffix _).trans left
  | @definition d c read =>
    rw [cursor_generateDefinition]
    have left := (forward_definition s.table s.cursor).1
    rwa [read] at left
  | @external p c read =>
    rw [cursor_generateExternal]
    have left := (forward_external s.cursor).1
    rwa [read] at left
  | @expression d c read =>
    rw [cursor_generateExpression]
    have left := (Parse.forward_topLevel s.table s.cursor).1
    rwa [read] at left

theorem named_of_reaches (named : s₀.cursor.Named) (reaches : Reaches t s₀ s) :
    s.cursor.Named := by
  induction reaches with
  | start => exact named
  | act _ act ih => exact ih.of_suffix (ahead_of_act act)

theorem outcome_generateExpression (t : Target σ V F) (s : Session σ V) (d : Definition) :
    (∃ e, (s.generateExpression t d).1 = .failed e) ∨
      ∃ code value output,
        (s.generateExpression t d).1 = .expression code value output := by
  unfold generateExpression
  split
  · exact Or.inl ⟨_, rfl⟩
  · simp only
    split
    rename_i result target ran
    rcases result with e | _ | evaluation
    · exact Or.inl ⟨_, rfl⟩
    · exact Or.inr ⟨_, _, _, rfl⟩
    · exact Or.inr ⟨_, _, _, rfl⟩

theorem named_of_act (named : s.cursor.Named) (act : Act t s (o, s')) : o.Named := by
  generalize done : (o, s') = result at act
  have eq : o = result.1 := by rw [← done]
  rw [eq]
  cases handles_of_act act with
  | skipped => trivial
  | refused left => trivial
  | definition read =>
    unfold generateDefinition
    split
    · exact Parse.name_ne_of_definition named read
    · trivial
  | external read =>
    unfold generateExternal
    split
    · exact Parse.name_ne_of_external named read
    · trivial
  | @expression d c read =>
    rcases outcome_generateExpression t { s with cursor := c } d with
      ⟨e, eq⟩ | ⟨code, value, output, eq⟩ <;> rw [eq] <;> trivial

end Names

end Session

/-! ### Effects of acts -/

namespace Session

open Assembly

variable {σ : Type} {t : Target σ Value Handle} {view : σ → Assembly}
variable {s s' s₀ : Session σ Value} {o : Outcome}

def HasEffect (view : σ → Assembly) (s : Session σ Value)
    (done : Outcome × Session σ Value) : Prop :=
  (view s.generator.target).Effect done.1 (view done.2.generator.target) ∧
    (s.generator.scope = [] → done.2.generator.scope = [])

theorem generateDefinition_effect (ht : t.Unreliable view) (s : Session σ Value)
    (d : Definition) : HasEffect view s (s.generateDefinition t d) := by
  obtain ⟨scope, defined⟩ := Gen.definition_outcome ht d s.generator
  unfold generateDefinition
  split
  · rename_i generated
    rw [generated] at scope defined
    exact ⟨.definition defined _, scope⟩
  · rename_i generated
    rw [generated] at scope defined
    exact ⟨.failed defined _, scope⟩

theorem generateExternal_effect (ht : t.Unreliable view) (s : Session σ Value)
    (p : Prototype) : HasEffect view s (s.generateExternal t p) := by
  obtain ⟨scope, declared⟩ := Gen.prototype_outcome ht p s.generator
  unfold generateExternal
  split
  · rename_i generated
    rw [generated] at scope declared
    exact ⟨.external declared _, scope.trans⟩
  · rename_i generated
    rw [generated] at scope declared
    refine ⟨.failed ?_ _, scope.trans⟩
    simp only at declared
    rw [declared]
    exact .refl _

/-- A nameless definition is new, and giving it up gives everything back. -/
theorem Defines.abandon {a c : Assembly} {d : Definition} {h : Handle}
    (defines : a.Defines d h c) (nameless : d.proto.name = "") :
    a.Keeps ((Assembly.abandon h).run c).2 := by
  obtain ⟨declares, here, bodiless, code, le, rfl, -⟩ := defines
  cases declares with
  | found named count => exact absurd nameless (lookup_eq_some_iff.1 named).1
  | new unnamed => exact Drafted.abandon (.begun _ le)

/-- A bare expression leaves everything as it was. -/
theorem generateExpression_keeps (ht : t.Unreliable view) (s : Session σ Value)
    {d : Definition} (nameless : d.proto.name = "") :
    (view s.generator.target).Keeps (view (s.generateExpression t d).2.generator.target) := by
  obtain ⟨-, defined⟩ := Gen.definition_outcome ht d s.generator
  unfold generateExpression
  split
  · rename_i generated
    rw [generated] at defined
    exact defined
  · rename_i f g generated
    rw [generated] at defined
    have given_up := Defines.abandon defined nameless
    -- Running the function changes nothing.
    have same : view (if s.settings.evaluate then (t.evaluate f).run.run g.target
        else (.ok none, g.target)).2 = view g.target := by
      split
      · exact ht.evaluate f g.target
      · rfl
    generalize (if s.settings.evaluate then (t.evaluate f).run.run g.target
      else (.ok none, g.target)) = ran at same ⊢
    change (view s.generator.target).Keeps (view ((t.abandon f).run ran.2).2)
    rw [ht.abandon, same]
    exact given_up

theorem generateExpression_effect (ht : t.Unreliable view) (s : Session σ Value)
    {d : Definition} (nameless : d.proto.name = "") :
    HasEffect view s (s.generateExpression t d) := by
  have keeps := generateExpression_keeps ht s nameless
  refine ⟨?_, fun empty => ?_⟩
  · rcases outcome_generateExpression t s d with ⟨e, eq⟩ | ⟨code, value, output, eq⟩ <;> rw [eq]
    · exact .failed keeps e
    · exact .expression keeps code value output
  · have scope := (Gen.definition_outcome ht d s.generator).1 empty
    unfold generateExpression
    split
    · rename_i generated
      rw [generated] at scope
      exact scope
    · rename_i generated
      rw [generated] at scope
      exact scope

/-- Whatever a session is told to do, it has the effect of a construct on the assembly. -/
theorem effect_of_act (ht : t.Unreliable view) {done : Outcome × Session σ Value}
    (act : Act t s done) : HasEffect view s done := by
  cases handles_of_act act with
  | skipped => exact ⟨.skipped, id⟩
  | refused left => exact ⟨.failed (.refl _) _, id⟩
  | @definition d c read => exact generateDefinition_effect ht { s with cursor := c } d
  | @external p c read => exact generateExternal_effect ht { s with cursor := c } p
  | @expression d c read =>
    have nameless : d.proto.name = "" := by rw [Parse.name_of_topLevel read]; rfl
    exact generateExpression_effect ht { s with cursor := c } nameless

/-! ### What runs preserve -/

theorem consistent_of_reaches (ht : t.Unreliable view) (fresh : s₀.Fresh view)
    (reaches : Reaches t s₀ s) : (view s.generator.target).Consistent := by
  induction reaches with
  | start =>
    obtain ⟨moduleName, depthLimit, target⟩ := fresh.target
    rw [target]
    exact consistent_empty moduleName depthLimit
  | act _ act ih => exact (effect_of_act ht act).1.consistent ih

theorem scope_of_reaches (ht : t.Unreliable view) (fresh : s₀.Fresh view)
    (reaches : Reaches t s₀ s) : s.generator.scope = [] := by
  induction reaches with
  | start => exact fresh.scope
  | act _ act ih => exact (effect_of_act ht act).2 ih

theorem grows_of_reaches (ht : t.Unreliable view) (reaches : Reaches t s s') :
    (view s.generator.target).Grows (view s'.generator.target) := by
  induction reaches with
  | start => exact .refl _
  | act _ act ih => exact ih.trans (effect_of_act ht act).1.grows

end Session

end Reckon
