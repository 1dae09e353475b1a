/-
  The tokens that constructs are rooted in.

  A diagnostic is put at a node of a tree, and a node begins with a token of the word that
  the tree was read from: an operation borrows the beginning of its left operand and a group
  that of what is inside, so in the end it is an identifier or a number.  `Diagnostic.Points`
  says that a diagnostic is about a token.

  The main statements are `roots_topLevel`, `roots_definition` and `roots_external`: with
  every table of operators, whatever a construct that was read can be blamed for is about a
  token that reading it took.
-/
import Reckon.Proofs.Diagnostic.Severity
import Reckon.Proofs.Grammar.Stopping

namespace Reckon

def Cause.subject? : Cause → Option String
  | .unknownVariable name | .unknownFunction name | .argumentCount name _ _
  | .prototypeMismatch name _ _ | .redefinition name | .invalidFunction name => some name
  | _ => none

namespace Token

def IsOperand (t : Token) : Prop := t.kind = .identifier ∨ t.kind = .number

structure Roots (u : Token) (p : Position) : Prop where
  operand : u.IsOperand
  start : p = u.span.start

end Token

/-- The diagnostic is about the token: it stands where the token begins, a syntax error
    carries the text of the token, and a name is that text, unless it is the empty name of a
    bare expression. -/
structure Diagnostic.Points (d : Diagnostic) (u : Token) : Prop where
  position : d.position = u.span.start
  found : ∀ what found, d.cause = .missing what found → found = u.text
  subject : ∀ name, d.cause.subject? = some name → name = u.text ∨ name = ""
  operand : d.cause.severity = .semantic → u.IsOperand

theorem Cursor.complaint_points (c : Cursor) (what : Expectation) :
    (c.complaint what).Points c.current := by
  refine ⟨rfl, ?_, nofun, nofun⟩
  intro what' found missing
  cases missing
  rfl

variable {table : OperatorTable} {u : Token} {p : Position} {d : Diagnostic} {ts : List Token}

theorem Token.Roots.points {cause : Cause} (roots : u.Roots p)
    (semantic : cause.severity = .semantic)
    (subject : ∀ name, cause.subject? = some name → name = u.text ∨ name = "") :
    Diagnostic.Points ⟨cause, p⟩ u := by
  refine ⟨roots.start, ?_, subject, fun _ => roots.operand⟩
  rintro what found rfl
  cases semantic

theorem Token.Roots.points_target (roots : u.Roots p) (e : TargetError) :
    Diagnostic.Points ⟨e.toCause, p⟩ u := by
  refine roots.points e.severity_toCause ?_
  intro name subject
  cases e <;> cases subject

theorem Token.Roots.points_named {cause : Cause} (roots : u.Roots p)
    (subject : cause.subject? = some u.text) : Diagnostic.Points ⟨cause, p⟩ u := by
  refine ⟨roots.start, ?_, ?_, fun _ => roots.operand⟩
  · rintro what found rfl
    cases subject
  · intro name other
    rw [subject] at other
    cases other
    exact Or.inl rfl

/-! ### Expressions -/

mutual
theorem Operand.root : ∀ {ts : List Token} {e : Expr}, Operand table ts e →
    ∃ u ∈ ts, u.Roots e.span.start
  | _, _, .number t kind => ⟨t, List.mem_singleton_self t, Or.inr kind, rfl⟩
  | _, _, .var t kind => ⟨t, List.mem_singleton_self t, Or.inl kind, rfl⟩
  | _, _, .group opens inside closes => by
    obtain ⟨u, member, roots⟩ := inside.root
    exact ⟨u, by simp [member], roots⟩
  | _, _, .call named opens inside closes => ⟨_, List.mem_cons_self, Or.inl named, rfl⟩
  | _, _, .callEmpty named opens closes => ⟨_, List.mem_cons_self, Or.inl named, rfl⟩

/-- An expression begins where the operand on its left does. -/
theorem Expression.root : ∀ {ts : List Token} {e : Expr}, Expression table ts e →
    ∃ u ∈ ts, u.Roots e.span.start
  | _, _, .operand alone => alone.root
  | _, _, .binary ofLeft operator ofRight => by
    obtain ⟨u, member, roots⟩ := ofLeft.root
    exact ⟨u, List.mem_append_left _ member, roots⟩
end

def Expr.PointsIn (ts : List Token) (e : Expr) : Prop :=
  ∀ d, e.Blamed d → ∃ u ∈ ts, d.Points u

mutual
theorem Operand.points : ∀ {ts : List Token} {e : Expr}, Operand table ts e → e.PointsIn ts
  | _, _, .number t kind => by
    intro d blamed
    have roots : t.Roots t.span.start := ⟨Or.inr kind, rfl⟩
    cases blamed with
    | literal e => exact ⟨t, List.mem_singleton_self t, roots.points_target e⟩
  | _, _, .var t kind => by
    intro d blamed
    have roots : t.Roots t.span.start := ⟨Or.inl kind, rfl⟩
    cases blamed with
    | unbound => exact ⟨t, List.mem_singleton_self t, roots.points_named rfl⟩
  | _, _, .group opens inside closes => by
    intro d blamed
    obtain ⟨u, member, points⟩ := inside.points d blamed
    exact ⟨u, by simp [member], points⟩
  | _, _, @Operand.call _ name _ _ _ _ named opens inside closes => by
    intro d blamed
    have roots : name.Roots name.span.start := ⟨Or.inl named, rfl⟩
    cases blamed with
    | unknown => exact ⟨name, List.mem_cons_self, roots.points_named rfl⟩
    | count => exact ⟨name, List.mem_cons_self, roots.points_named rfl⟩
    | argument among within =>
      obtain ⟨u, member, points⟩ := inside.points _ among d within
      exact ⟨u, by simp [member], points⟩
    | call e => exact ⟨name, List.mem_cons_self, roots.points_target e⟩
  | _, _, @Operand.callEmpty _ name _ _ named opens closes => by
    intro d blamed
    have roots : name.Roots name.span.start := ⟨Or.inl named, rfl⟩
    cases blamed with
    | unknown => exact ⟨name, List.mem_cons_self, roots.points_named rfl⟩
    | count => exact ⟨name, List.mem_cons_self, roots.points_named rfl⟩
    | argument among within => cases among
    | call e => exact ⟨name, List.mem_cons_self, roots.points_target e⟩

theorem Expression.points : ∀ {ts : List Token} {e : Expr}, Expression table ts e →
    e.PointsIn ts
  | _, _, .operand alone => alone.points
  | _, _, .binary ofLeft operator ofRight => by
    intro d blamed
    obtain ⟨u, member, roots⟩ := ofLeft.root
    rw [Expr.binary] at blamed
    cases blamed with
    | left within =>
      obtain ⟨v, member, points⟩ := ofLeft.points d within
      exact ⟨v, List.mem_append_left _ member, points⟩
    | right within =>
      obtain ⟨v, member, points⟩ := ofRight.points d within
      exact ⟨v, List.mem_append_right _ (List.mem_cons_of_mem _ member), points⟩
    | invalid => exact ⟨u, List.mem_append_left _ member, roots.points rfl nofun⟩
    | operation e => exact ⟨u, List.mem_append_left _ member, roots.points_target e⟩

theorem Arguments.points : ∀ {ts : List Token} {es : List Expr}, Arguments table ts es →
    ∀ e ∈ es, e.PointsIn ts
  | _, _, .one only => by
    intro e among
    rw [List.mem_singleton.1 among]
    exact only.points
  | _, _, .more first separates others => by
    intro e among d blamed
    have ofFirst := first.points
    rcases List.mem_cons.1 among with rfl | later
    · obtain ⟨u, member, points⟩ := ofFirst d blamed
      exact ⟨u, List.mem_append_left _ member, points⟩
    · obtain ⟨u, member, points⟩ := others.points e later d blamed
      exact ⟨u, List.mem_append_right _ (List.mem_cons_of_mem _ member), points⟩
end

/-! ### Prototypes and definitions -/

structure Prototype.BeginsWith (proto : Prototype) (u : Token) : Prop where
  roots : u.Roots proto.span.start
  named : proto.name = u.text ∨ proto.name = ""

theorem PrototypeWord.begins {proto : Prototype} (word : PrototypeWord ts proto) :
    ∃ u ∈ ts, proto.BeginsWith u := by
  obtain ⟨named, opens, identifiers, closes⟩ := word
  exact ⟨_, List.mem_cons_self, ⟨Or.inl named, rfl⟩, Or.inl rfl⟩

namespace Prototype.BeginsWith

variable {proto : Prototype}

theorem points_named {cause : Cause} (begins : proto.BeginsWith u)
    (semantic : cause.severity = .semantic) (subject : cause.subject? = some proto.name) :
    Diagnostic.Points ⟨cause, proto.span.start⟩ u := by
  refine begins.roots.points semantic ?_
  intro name other
  rw [subject] at other
  cases other
  exact begins.named

theorem points (begins : proto.BeginsWith u) (blamed : proto.Blamed d) : d.Points u := by
  cases blamed with
  | mismatch expected => exact begins.points_named rfl rfl
  | target e => exact begins.roots.points_target e

end Prototype.BeginsWith

theorem Definition.Blamed.points {x : Definition} (blamed : x.Blamed d)
    (begins : x.proto.BeginsWith u) (among : u ∈ ts) (body : x.body.PointsIn ts) :
    ∃ v ∈ ts, d.Points v := by
  cases blamed with
  | prototype within => exact ⟨u, among, begins.points within⟩
  | redefinition => exact ⟨u, among, begins.points_named rfl rfl⟩
  | body within => exact body d within
  | invalid => exact ⟨u, among, begins.points_named rfl rfl⟩

/-! ### Reading -/

namespace Parse

/-- Whatever of `B` holds of what was read is about a token that reading took. -/
def RootsIn {α : Type} (B : α → Diagnostic → Prop) (p : Parse α) : Prop :=
  ∀ c a c', p.outcome c = (.ok a, c') →
    ∃ taken, c.ahead = taken ++ c'.ahead ∧ ∀ d, B a d → ∃ u ∈ taken, d.Points u

/-- With every table, an expression is read from a word that derives it. -/
theorem word_of_expression {c c' : Cursor} {e : Expr}
    (read : (expression table).outcome c = (.ok e, c')) :
    ∃ taken, c.ahead = taken ++ c'.ahead ∧ Expression table taken e := by
  obtain ⟨taken, ahead, all, -⟩ := Reader.run_stops (.whole table) Reader.start c.ahead
  have reads := (reads_start table).shiftAll all
  rw [expression, outcome_read] at read
  simp only at read
  cases settled : (Reader.start.run ⟨table, .chain 0⟩ c.ahead).1.settle with
  | error what =>
    rw [settled] at read
    cases read
  | ok e' =>
    rw [settled] at read
    cases read
    exact ⟨taken, ahead, reads.derives settled⟩

theorem roots_topLevel (table : OperatorTable) :
    (topLevel table).RootsIn Definition.Blamed := by
  intro c x c' read
  unfold topLevel at read
  rw [outcome_bind] at read
  split at read
  · rename_i e between expressed
    cases read
    obtain ⟨taken, ahead, word⟩ := word_of_expression expressed
    obtain ⟨u, member, roots⟩ := word.root
    have begins : (Definition.anonymous e).proto.BeginsWith u := ⟨roots, Or.inr rfl⟩
    exact ⟨taken, ahead, fun d blamed => blamed.points begins member word.points⟩
  · cases read

/-- What comes after a keyword is rooted in what was taken after it. -/
theorem RootsIn.afterNext {α : Type} {B : α → Diagnostic → Prop} {p : Parse α}
    (roots : p.RootsIn B) : (next >>= fun _ => p).RootsIn B := by
  intro c a c' read
  rw [outcome_bind, outcome_next] at read
  obtain ⟨taken, ahead, points⟩ := roots c.advance a c' read
  obtain ⟨passed, eq⟩ := List.tail_suffix c.ahead
  refine ⟨passed ++ taken, ?_, ?_⟩
  · rw [List.append_assoc, ← ahead, ← eq]
    rfl
  · intro d blamed
    obtain ⟨u, member, about⟩ := points d blamed
    exact ⟨u, List.mem_append_right _ member, about⟩

theorem word_of_prototype {c c' : Cursor} {proto : Prototype}
    (read : prototype.outcome c = (.ok proto, c')) :
    ∃ taken, c.ahead = taken ++ c'.ahead ∧ PrototypeWord taken proto := by
  obtain ⟨taken, takes⟩ := takes_prototype c
  rw [read] at takes
  exact ⟨taken, takes.ahead, takes.derives proto rfl⟩

theorem roots_external : external.RootsIn Prototype.Blamed := by
  apply RootsIn.afterNext
  intro c proto c' read
  obtain ⟨taken, ahead, word⟩ := word_of_prototype read
  obtain ⟨u, member, begins⟩ := word.begins
  exact ⟨taken, ahead, fun d blamed => ⟨u, member, begins.points blamed⟩⟩

theorem roots_definition (table : OperatorTable) :
    (definition table).RootsIn Definition.Blamed := by
  apply RootsIn.afterNext
  intro c x c' read
  rw [outcome_bind] at read
  split at read
  · rename_i proto between prototyped
    rw [outcome_bind] at read
    split at read
    · rename_i body after expressed
      cases read
      obtain ⟨front, ahead, signature⟩ := word_of_prototype prototyped
      obtain ⟨back, ahead', word⟩ := word_of_expression expressed
      obtain ⟨u, member, begins⟩ := signature.begins
      refine ⟨front ++ back, by rw [ahead, ahead', List.append_assoc], fun d blamed => ?_⟩
      refine blamed.points begins (List.mem_append_left _ member) fun e within => ?_
      obtain ⟨v, among, points⟩ := word.points e within
      exact ⟨v, List.mem_append_right _ among, points⟩
    · cases read
  · cases read

end Parse

end Reckon
