/-
  Diagnostics point at the source.

  An act of a session takes some of the tokens ahead, and if it fails, the diagnostic is
  about one of them, or about the closing token when none are left (`passes_of_act`).  What
  is taken once is never taken again, and so the failures of a run come in the order of the
  source.

  The main statement is `failures_point`: for every source and settings, and with every
  target.
-/
import Reckon.Proofs.Grammar.Rooting
import Reckon.Proofs.Session.Recovery
import Reckon.Proofs.Token.Placing

namespace Reckon

/-! ### The tokens that an act takes -/

/-- Going from one cursor to another took some tokens, and a failure on the way is about one
    of them or, if all are taken, about the closing token. -/
def Cursor.Passes (c c' : Cursor) (o : Outcome) : Prop :=
  ∃ taken, c.ahead = taken ++ c'.ahead ∧ c'.final = c.final ∧
    ∀ d, o = .failed d → ∃ u, d.Points u ∧ (u ∈ taken ∨ u = c.final ∧ c'.ahead = [])

namespace Session

variable {σ V F : Type} {t : Target σ V F} {s s' : Session σ V} {o : Outcome}

section Reading

variable {α : Type} {p : Parse α} {B : α → Diagnostic → Prop} {c c' : Cursor} {d : Diagnostic}

theorem passes_of_refused (forward : p.Forward) (complains : p.Complains)
    (refused : p.outcome c = (.error d, c')) : c.Passes c'.advance (.failed d) := by
  obtain ⟨⟨taken, ahead⟩, final⟩ := forward c
  obtain ⟨what, complaint⟩ := complains c d c' refused
  rw [refused] at ahead final
  have points := c'.complaint_points what
  rw [← complaint] at points
  cases left : c'.ahead with
  | nil =>
    rw [left] at ahead
    refine ⟨taken, by simp [Cursor.advance, left, ahead], final, ?_⟩
    rintro _ ⟨rfl⟩
    have last : c'.current = c.final := by
      rw [← final]
      simp [Cursor.current, left]
    exact ⟨c'.current, points, Or.inr ⟨last, by simp [Cursor.advance, left]⟩⟩
  | cons u rest =>
    rw [left] at ahead
    refine ⟨taken ++ [u], by simp [Cursor.advance, left, ← ahead], final, ?_⟩
    rintro _ ⟨rfl⟩
    have hand : c'.current = u := by simp [Cursor.current, left]
    exact ⟨c'.current, points, Or.inl (by simp [hand])⟩

theorem passes_of_read {a : α} (forward : p.Forward) (roots : p.RootsIn B)
    (read : p.outcome c = (.ok a, c')) (blamed : ∀ d, o = .failed d → B a d) :
    c.Passes c' o := by
  obtain ⟨-, final⟩ := forward c
  obtain ⟨taken, ahead, points⟩ := roots c a c' read
  rw [read] at final
  refine ⟨taken, ahead, final, ?_⟩
  intro d failed
  obtain ⟨u, member, about⟩ := points d (blamed d failed)
  exact ⟨u, about, Or.inl member⟩

end Reading

theorem passes_definition (t : Target σ V F) (s : Session σ V) :
    s.cursor.Passes (s.definition t).2.cursor (s.definition t).1 := by
  unfold Session.definition
  split
  · rename_i x c read
    rw [cursor_generateDefinition]
    refine passes_of_read (forward_definition s.table) (Parse.roots_definition s.table) read ?_
    intro d failed
    exact blamed_of_generate (x := .definition x) failed
  · rename_i d c read
    exact passes_of_refused (forward_definition s.table) (Parse.complains_definition s.table) read

theorem passes_external (t : Target σ V F) (s : Session σ V) :
    s.cursor.Passes (s.external t).2.cursor (s.external t).1 := by
  unfold Session.external
  split
  · rename_i p c read
    rw [cursor_generateExternal]
    refine passes_of_read forward_external Parse.roots_external read ?_
    intro d failed
    exact blamed_of_generate (x := .external p) failed
  · rename_i d c read
    exact passes_of_refused forward_external Parse.complains_external read

theorem passes_expression (t : Target σ V F) (s : Session σ V) :
    s.cursor.Passes (s.expression t).2.cursor (s.expression t).1 := by
  unfold Session.expression
  split
  · rename_i x c read
    rw [cursor_generateExpression]
    refine passes_of_read (Parse.forward_topLevel s.table) (Parse.roots_topLevel s.table) read ?_
    intro d failed
    exact blamed_of_generate (x := .expression x) failed
  · rename_i d c read
    exact passes_of_refused (Parse.forward_topLevel s.table) (Parse.complains_topLevel s.table)
      read

theorem passes_of_act {done : Outcome × Session σ V} (act : Act t s done) :
    s.cursor.Passes done.2.cursor done.1 := by
  cases act with
  | definition => exact passes_definition t s
  | external => exact passes_external t s
  | expression => exact passes_expression t s
  | step stepped =>
    unfold step at stepped
    split at stepped
    · cases stepped
    · cases stepped
      obtain ⟨taken, ahead⟩ := List.tail_suffix s.cursor.ahead
      exact ⟨taken, ahead.symm, rfl, nofun⟩
    · cases stepped
      exact passes_definition t s
    · cases stepped
      exact passes_external t s
    · cases stepped
      exact passes_expression t s

/-! ### Runs -/

theorem closes_of_passes {c c' : Cursor} (passes : c.Passes c' o) :
    c'.ahead ++ [c'.final] <:+ c.ahead ++ [c.final] := by
  obtain ⟨taken, ahead, final, -⟩ := passes
  exact ⟨taken, by rw [ahead, final, List.append_assoc]⟩

theorem closes_of_reaches {s₀ : Session σ V} (reaches : Reaches t s₀ s) :
    s.cursor.ahead ++ [s.cursor.final] <:+ s₀.cursor.ahead ++ [s₀.cursor.final] := by
  induction reaches with
  | start => exact List.suffix_refl _
  | act _ act ih => exact (closes_of_passes (passes_of_act act)).trans ih

theorem points_of_act {d : Diagnostic} (act : Act t s (.failed d, s')) :
    ∃ u ∈ s.cursor.ahead ++ [s.cursor.final], d.Points u := by
  obtain ⟨taken, ahead, -, points⟩ := passes_of_act act
  obtain ⟨u, about, member⟩ := points d rfl
  refine ⟨u, ?_, about⟩
  rcases member with among | ⟨last, -⟩
  · rw [ahead]
    exact List.mem_append_left _ (List.mem_append_left _ among)
  · exact List.mem_append_right _ (List.mem_singleton.2 last)

def failures (t : Target σ V F) (s : Session σ V) : List Diagnostic :=
  (s.steps t).filterMap fun done => match done.1 with
    | .failed d => some d
    | _ => none

theorem failures_of_none (ended : s.step t = none) : s.failures t = [] := by
  rw [failures, steps_of_none ended]
  rfl

theorem failures_of_some (stepped : s.step t = some (o, s')) :
    (∀ d, o ≠ .failed d) ∧ s.failures t = s'.failures t ∨
      ∃ d, o = .failed d ∧ s.failures t = d :: s'.failures t := by
  rw [failures, steps_of_some stepped]
  cases o with
  | failed d => exact Or.inr ⟨d, rfl, rfl⟩
  | _ => exact Or.inl ⟨nofun, rfl⟩

/-- Where the tokens ahead begin one after the other, so do those that the failures of a run
    are about. -/
theorem failures_ordered (t : Target σ V F) (s : Session σ V)
    (ordered : (s.cursor.ahead ++ [s.cursor.final]).Pairwise
      fun u v => u.span.start.offset < v.span.start.offset) :
    (∀ d ∈ s.failures t, ∃ u ∈ s.cursor.ahead ++ [s.cursor.final], d.Points u) ∧
      (s.failures t).Pairwise fun d e => d.position.offset < e.position.offset := by
  induction s using induction_on_steps t with
  | ended s ended =>
    rw [failures_of_none ended]
    exact ⟨nofun, .nil⟩
  | stepped s o s' stepped ih =>
    have passes : s.cursor.Passes s'.cursor o := passes_of_act (.step stepped)
    have suffix := closes_of_passes passes
    obtain ⟨points, later⟩ := ih (ordered.sublist suffix.sublist)
    have among : ∀ d ∈ s'.failures t, ∃ u ∈ s.cursor.ahead ++ [s.cursor.final], d.Points u := by
      intro d member
      obtain ⟨u, member', about⟩ := points d member
      exact ⟨u, suffix.subset member', about⟩
    rcases failures_of_some stepped with ⟨-, same⟩ | ⟨d, rfl, more⟩
    · rw [same]
      exact ⟨among, later⟩
    · rw [more]
      refine ⟨List.forall_mem_cons.2 ⟨points_of_act (.step stepped), among⟩,
        List.pairwise_cons.2 ⟨?_, later⟩⟩
      intro e member
      obtain ⟨taken, ahead, final, here⟩ := passes
      obtain ⟨u, about, inTaken | ⟨-, empty⟩⟩ := here d rfl
      · obtain ⟨v, member', about'⟩ := points e member
        rw [ahead, List.append_assoc, ← final, List.pairwise_append] at ordered
        rw [about.position, about'.position]
        exact ordered.2.2 u inTaken v member'
      · -- The failure was at the end of the input, and nothing comes after it.
        have ended : s'.step t = none := by
          rw [step_eq_none_iff, Cursor.kind, Cursor.current, empty]
          exact s'.cursor.final_kind
        rw [failures_of_none ended] at member
        cases member

/-! ### Places in a source -/

def StandsAt (source : String) (offset : Nat) (text : String) : Prop :=
  ∃ front back, source.toList = front ++ (text.toList ++ back) ∧ byteLength front = offset

/-- The diagnostic is about a place of the source that shows what it says. -/
structure PointsInto (source file : String) (d : Diagnostic) : Prop where
  inFile : d.position.file = file
  /-- The place is between two characters, or before the first or after the last. -/
  boundary : ∃ front back, source.toList = front ++ back ∧ byteLength front = d.position.offset
  found : ∀ what found, d.cause = .missing what found →
    StandsAt source d.position.offset found ∨
      d.position.offset = byteLength source.toList ∧ found = "EOF"
  subject : ∀ name, d.cause.subject? = some name → StandsAt source d.position.offset name
  operand : d.cause.severity = .semantic →
    ∃ u ∈ tokenize source file, u.IsOperand ∧ d.position = u.span.start

theorem severity_of_subject {cause : Cause} {name : String} (subject : cause.subject? = some name) :
    cause.severity = .semantic := by
  cases cause with
  | missing what found => cases subject
  | _ => rfl

theorem pointsInto_of_piece {source file : String} {d : Diagnostic} {u : Token}
    (points : d.Points u) (member : u ∈ tokenize source file)
    (piece : u.PieceOf file 0 source.toList) : PointsInto source file d := by
  obtain ⟨front, back, split, span⟩ := piece.stands
  have start : d.position = ⟨byteLength front, file⟩ := by
    rw [points.position, span, Nat.zero_add]
    rfl
  have stands : StandsAt source d.position.offset u.text := ⟨front, back, split, by rw [start]⟩
  constructor
  · rw [start]
  · exact ⟨front, u.text.toList ++ back, split, by rw [start]⟩
  · intro what found missing
    rw [points.found what found missing]
    exact Or.inl stands
  · intro name subject
    rcases points.subject name subject with rfl | rfl
    · exact stands
    · exact ⟨front, u.text.toList ++ back, split, by rw [start]⟩
  · intro semantic
    exact ⟨u, member, points.operand semantic, points.position⟩

theorem pointsInto_of_end {source file : String} {d : Diagnostic}
    (points : d.Points (.endAt file (byteLength source.toList))) : PointsInto source file d := by
  -- The end of the input is no operand, and so only a syntax error is about it.
  have syntactic : d.cause.severity ≠ .semantic := by
    intro semantic
    rcases points.operand semantic with identifier | number
    · cases identifier
    · cases number
  constructor
  · rw [points.position]
    rfl
  · exact ⟨source.toList, [], (List.append_nil _).symm, by rw [points.position]; rfl⟩
  · intro what found missing
    exact Or.inr ⟨by rw [points.position]; rfl, points.found what found missing⟩
  · intro name subject
    exact absurd (severity_of_subject subject) syntactic
  · intro semantic
    exact absurd semantic syntactic

/-- For every source and all settings, and with every target: whatever a session over the
    source is told to do and whenever that fails, the diagnostic points into the source, and
    along a run the failures come in the order of the source, no two at one place. -/
theorem failures_point (t : Target σ V F) (source file : String) (target : σ)
    (settings : Settings) :
    let s₀ : Session σ V := ofSource source file target settings
    (∀ s, Reaches t s₀ s → ∀ d s', Act t s (.failed d, s') → PointsInto source file d) ∧
      (∀ d ∈ s₀.failures t, PointsInto source file d) ∧
      (s₀.failures t).Pairwise fun d e => d.position.offset < e.position.offset := by
  intro s₀
  obtain ⟨tokens, eq, pieces, ordered⟩ := scanned_pieces file 0 source.toList
  rw [Nat.zero_add] at eq
  have cursor : s₀.cursor = ⟨tokens, .endAt file (byteLength source.toList), rfl⟩ :=
    Cursor.ofSource_eq eq
  have whole : s₀.cursor.ahead ++ [s₀.cursor.final] = tokenize source file := by
    rw [cursor]
    exact eq.symm
  have into : ∀ d u, u ∈ tokenize source file → d.Points u → PointsInto source file d := by
    intro d u member points
    have member' := member
    rw [tokenize, eq] at member'
    rcases List.mem_append.1 member' with among | last
    · exact pointsInto_of_piece points member (pieces u among)
    · rw [List.mem_singleton.1 last] at points
      exact pointsInto_of_end points
  have increasing : (s₀.cursor.ahead ++ [s₀.cursor.final]).Pairwise
      fun u v => u.span.start.offset < v.span.start.offset := by
    rw [cursor, List.pairwise_append]
    refine ⟨?_, List.pairwise_singleton _ _, ?_⟩
    · exact ordered.imp_of_mem fun member _ before => (pieces _ member).starts_before before
    · intro u member v last
      rw [List.mem_singleton.1 last]
      have stop := (pieces u member).stop_le
      rw [Nat.zero_add] at stop
      exact (pieces u member).starts_before stop
  obtain ⟨points, sorted⟩ := failures_ordered t s₀ increasing
  refine ⟨?_, ?_, sorted⟩
  · intro s reaches d s' act
    obtain ⟨u, member, about⟩ := points_of_act act
    exact into d u (whole ▸ (closes_of_reaches reaches).subset member) about
  · intro d member
    obtain ⟨u, among, about⟩ := points d member
    exact into d u (whole ▸ among) about

end Session

end Reckon
