/-
  Sessions one after the other.

  A session that is over leaves its assembly to the next one, which may read another source,
  with another table and other settings.  `Generator.OfSessions` are the states that come up
  so.  Their assemblies can be built and are consistent (`Settled`), and to generate a
  construct that was read, wherever, leads from one of them to another.
-/
import Reckon.Proofs.Generate.Reach
import Reckon.Proofs.Session.Recovery

namespace Reckon

open Assembly

namespace Construct

/-- A construct that was read, with whatever table and wherever. -/
inductive Parsed : Construct → Prop where
  | definition {table : OperatorTable} {c c' : Cursor} {d : Definition}
    (read : (Parse.definition table).outcome c = (.ok d, c')) : Parsed (.definition d)
  | external {c c' : Cursor} {p : Prototype} (read : Parse.external.outcome c = (.ok p, c')) :
    Parsed (.external p)
  | expression {table : OperatorTable} {c c' : Cursor} {d : Definition}
    (read : (Parse.topLevel table).outcome c = (.ok d, c')) : Parsed (.expression d)

theorem Parsed.nameless {d : Definition} (parsed : Parsed (.expression d)) :
    d.proto.name = "" := by
  cases parsed with
  | expression read =>
    rw [Parse.name_of_topLevel read]
    rfl

end Construct

/-! ### Assemblies between constructs -/

/-- An assembly that can be built, and whose live routines are well-formed. -/
structure Assembly.Settled (a : Assembly) : Prop where
  built : a.Built
  consistent : a.Consistent

namespace Session

variable {s : Session Assembly Value} {x : Construct} {d : Definition}

/-- Generating a bare expression that succeeds gives up its routine and does nothing else. -/
theorem target_generateExpression {h : Handle} {g : Generator Assembly Value}
    (generated : (Gen.definition target d).outcome s.generator = (.ok h, g)) :
    (s.generateExpression target d).2.generator.target = ((abandon h).run g.target).2 := by
  have same : ((target.evaluate h).run.run g.target).2 = g.target :=
    unreliable_target.evaluate h g.target
  unfold generateExpression
  rw [generated]
  cases s.settings.evaluate with
  | false => rfl
  | true => exact congrArg (fun a => ((abandon h).run a).2) same

theorem later_generate (s : Session Assembly Value) (x : Construct) :
    s.generator.target.Later (s.generate target x).2.generator.target := by
  cases x with
  | definition d =>
    have later := Gen.operating_definition d s.generator
    simp only [generate, generateDefinition]
    split
    all_goals
      rename_i generated
      rw [generated] at later
      exact later
  | external p =>
    have later := Gen.operating_prototype p s.generator
    simp only [generate, generateExternal]
    split
    all_goals
      rename_i generated
      rw [generated] at later
      exact later
  | expression d =>
    have later := Gen.operating_definition d s.generator
    rcases generated : (Gen.definition target d).outcome s.generator with ⟨e | h, g⟩ <;>
      rw [generated] at later
    · simp only [generate, generateExpression, generated]
      exact later
    · rw [generate, target_generateExpression generated]
      exact later.tail (.abandon h)

theorem effect_generate (s : Session Assembly Value) (parsed : x.Parsed) :
    s.generator.target.Effect (s.generate target x).1 (s.generate target x).2.generator.target := by
  cases x with
  | definition d => exact (generateDefinition_effect unreliable_target s d).1
  | external p => exact (generateExternal_effect unreliable_target s p).1
  | expression d => exact (generateExpression_effect unreliable_target s parsed.nameless).1

theorem later_of_act {done : Outcome × Session Assembly Value} (act : Act target s done) :
    s.generator.target.Later done.2.generator.target := by
  cases handles_of_act act with
  | skipped => exact .refl
  | refused => exact .refl
  | @definition d c => exact later_generate { s with cursor := c } (.definition d)
  | @external p c => exact later_generate { s with cursor := c } (.external p)
  | @expression d c => exact later_generate { s with cursor := c } (.expression d)

theorem settled_of_act {done : Outcome × Session Assembly Value}
    (settled : s.generator.target.Settled) (act : Act target s done) :
    done.2.generator.target.Settled where
  built := settled.built.later (later_of_act act)
  consistent := (effect_of_act unreliable_target act).1.consistent settled.consistent

theorem settled_of_reaches {s' : Session Assembly Value} (settled : s.generator.target.Settled)
    (reaches : Reaches target s s') : s'.generator.target.Settled := by
  induction reaches with
  | start => exact settled
  | act _ act before => exact settled_of_act before act

theorem generator_generate (s : Session Assembly Value) (x : Construct) (c : Cursor)
    (table : OperatorTable) : ({ s with cursor := c, table }.generate target x).2.generator =
      (s.generate target x).2.generator := by
  cases x with
  | definition d =>
    simp only [generate, generateDefinition]
    rcases (Gen.definition target d).outcome s.generator with ⟨e | h, g⟩ <;> rfl
  | external p =>
    simp only [generate, generateExternal]
    rcases (Gen.prototype target p).outcome s.generator with ⟨e | h, g⟩ <;> rfl
  | expression d =>
    simp only [generate, generateExpression]
    rcases (Gen.definition target d).outcome s.generator with ⟨e | h, g⟩ <;> rfl

end Session

/-! ### States that sessions lead to -/

open Session

/-- What was read is what a session over its source handles. -/
theorem Construct.Parsed.act {x : Construct} (parsed : x.Parsed) (s : Session Assembly Value) :
    ∃ c c' table, Act target { s with cursor := c, table }
      ({ s with cursor := c', table }.generate target x) := by
  cases parsed with
  | @definition table c c' d read =>
    have handled : { s with cursor := c, table }.definition target =
        { s with cursor := c', table }.generate target (.definition d) := by
      unfold Session.definition
      rw [read]
      rfl
    exact ⟨c, c', table, handled ▸ .definition⟩
  | @external c c' p read =>
    have handled : { s with cursor := c }.external target =
        { s with cursor := c' }.generate target (.external p) := by
      unfold Session.external
      rw [read]
      rfl
    exact ⟨c, c', s.table, handled ▸ .external⟩
  | @expression table c c' d read =>
    have handled : { s with cursor := c, table }.expression target =
        { s with cursor := c', table }.generate target (.expression d) := by
      unfold Session.expression
      rw [read]
      rfl
    exact ⟨c, c', table, handled ▸ .expression⟩

namespace Generator

/-- The states that sessions lead to, one session after the other, each over its own source
    and with its own table and settings. -/
inductive OfSessions : Generator Assembly Value → Prop where
  | empty (moduleName : String) (depthLimit : Nat) : OfSessions ⟨.empty moduleName depthLimit, []⟩
  | session {s s' : Session Assembly Value} (begins : OfSessions s.generator)
    (reaches : Reaches Assembly.target s s') : OfSessions s'.generator

theorem OfSessions.settled {g : Generator Assembly Value} (reached : g.OfSessions) :
    g.target.Settled := by
  induction reached with
  | empty moduleName depthLimit =>
    exact ⟨.empty moduleName depthLimit, consistent_empty moduleName depthLimit⟩
  | session begins reaches ih => exact settled_of_reaches ih reaches

theorem OfSessions.generate {s : Session Assembly Value} {x : Construct}
    (reached : s.generator.OfSessions) (parsed : x.Parsed) :
    (s.generate Assembly.target x).2.generator.OfSessions := by
  obtain ⟨c, c', table, act⟩ := parsed.act s
  rw [← generator_generate s x c' table]
  let u : Session Assembly Value := { s with cursor := c, table }
  exact .session (s := u) reached (.act .start act)

end Generator

end Reckon
