/-
  Spans of the nodes of an expression.

  A node is read from a word of tokens, and its span reaches from a token of the word to the
  same or a later one (`Span.Reaches`).  Brackets leave no node: the word without them derives
  the same expression (`Expression.shape`), and what is right below a node was read from a part
  of its word.  So every node has a stretch of the tokens for itself (`Expression.of_node`),
  the stretches of siblings come one after the other, and since tokens do not overlap, neither
  do their spans.

  The main statement is `Parse.nodes_nested`, with every table of operators.
-/
import Reckon.Proofs.Grammar.Climbing
import Reckon.Proofs.Grammar.Rooting
import Reckon.Proofs.Token.Placing

namespace Reckon

/-! ### Nodes -/

namespace Expr

def children : Expr → List Expr
  | .num .. | .var .. => []
  | .bin _ left right _ => [left, right]
  | .call _ args _ => args

inductive Node : Expr → Expr → Prop where
  | root (e : Expr) : Node e e
  | deeper {e child n : Expr} (among : child ∈ e.children) (node : Node child n) : Node e n

end Expr

/-! ### Spans -/

namespace Span

def Within (s outer : Span) : Prop :=
  outer.start.offset ≤ s.start.offset ∧ s.stop.offset ≤ outer.stop.offset

def StrictlyWithin (s outer : Span) : Prop :=
  outer.start.offset < s.start.offset ∧ s.stop.offset < outer.stop.offset

def Before (s next : Span) : Prop := s.stop.offset ≤ next.start.offset

def Cuts (source file : String) (s : Span) (text : String) : Prop :=
  ∃ front back, source.toList = front ++ (text.toList ++ back) ∧
    s = .within file (byteLength front) (byteLength front + byteLength text.toList)

theorem Within.refl (s : Span) : s.Within s := ⟨Nat.le_refl _, Nat.le_refl _⟩

theorem Within.trans {s t outer : Span} (inner : s.Within t) (more : t.Within outer) :
    s.Within outer :=
  ⟨Nat.le_trans more.1 inner.1, Nat.le_trans inner.2 more.2⟩

theorem Before.trans {s t u : Span} (before : s.Before t) (behind : t.Before u)
    (ordered : t.start.offset ≤ t.stop.offset) : s.Before u :=
  Nat.le_trans before (Nat.le_trans ordered behind)

end Span

/-- The token can be the last one of a node. -/
def Token.Closes (t : Token) : Prop := t.IsOperand ∨ t.kind = .char ')'

variable {source file : String} {table : OperatorTable} {ts us : List Token} {e n : Expr}
  {s : Span}

/-- The span reaches from a token of a word to the same or a later one. -/
inductive Span.Reaches (ts : List Token) (s : Span) : Prop where
  | alone {t : Token} (among : t ∈ ts) (operand : t.IsOperand) (eq : s = t.span)
  | across {t u : Token} (inOrder : [t, u].Sublist ts) (operand : t.IsOperand) (closes : u.Closes)
    (eq : s = ⟨t.span.start, u.span.stop⟩)

namespace Span.Reaches

theorem mono (reaches : s.Reaches us) (part : us.Sublist ts) : s.Reaches ts := by
  cases reaches with
  | alone among operand eq => exact .alone (part.subset among) operand eq
  | across inOrder operand closes eq => exact .across (inOrder.trans part) operand closes eq

theorem starts (reaches : s.Reaches ts) : ∃ t ∈ ts, t.Roots s.start := by
  cases reaches with
  | alone among operand eq => exact ⟨_, among, operand, by rw [eq]⟩
  | across inOrder operand closes eq => exact ⟨_, inOrder.subset (by simp), operand, by rw [eq]⟩

theorem stops (reaches : s.Reaches ts) : ∃ t ∈ ts, t.Closes ∧ s.stop = t.span.stop := by
  cases reaches with
  | alone among operand eq => exact ⟨_, among, Or.inl operand, by rw [eq]⟩
  | across inOrder operand closes eq => exact ⟨_, inOrder.subset (by simp), closes, by rw [eq]⟩

end Span.Reaches

mutual
theorem Operand.reaches : ∀ {ts : List Token} {e : Expr}, Operand table ts e →
    e.span.Reaches ts
  | _, _, .number t kind => .alone (List.mem_singleton_self t) (Or.inr kind) rfl
  | _, _, .var t kind => .alone (List.mem_singleton_self t) (Or.inl kind) rfl
  | _, _, .group opens inside closes =>
    inside.reaches.mono ((List.sublist_append_left _ _).trans (List.sublist_cons_self _ _))
  | _, _, .call named opens inside closes => by
    refine .across ?_ (Or.inl named) (Or.inr closes) rfl
    exact .cons_cons _ (.cons _ (List.sublist_append_right _ _))
  | _, _, .callEmpty named opens closes =>
    .across (.cons_cons _ (.cons _ (.refl _))) (Or.inl named) (Or.inr closes) rfl

theorem Expression.reaches : ∀ {ts : List Token} {e : Expr}, Expression table ts e →
    e.span.Reaches ts
  | _, _, .operand alone => alone.reaches
  | _, _, .binary ofLeft operator ofRight => by
    obtain ⟨t, ofFirst, roots⟩ := ofLeft.reaches.starts
    obtain ⟨u, ofLast, closes, stop⟩ := ofRight.reaches.stops
    refine .across ?_ roots.operand closes (by rw [← roots.start, ← stop]; rfl)
    refine List.Sublist.append (List.singleton_sublist.2 ofFirst) ?_
    exact List.singleton_sublist.2 (List.mem_cons_of_mem _ ofLast)
end

/-! ### Words without brackets around them -/

/-- An expression read from a word that does not stand in brackets of its own. -/
inductive Shape (table : OperatorTable) : List Token → Expr → Prop where
  | number (t : Token) (kind : t.kind = .number) : Shape table [t] (.num t.number t.span)
  | var (t : Token) (kind : t.kind = .identifier) : Shape table [t] (.var t.text t.span)
  | call {name opening closing : Token} {ts : List Token} {args : List Expr}
    (named : name.kind = .identifier) (closes : closing.kind = .char ')')
    (inside : args = [] ∨ Arguments table ts args) :
    Shape table (name :: opening :: (ts ++ [closing]))
      (.call name.text args ⟨name.span.start, closing.span.stop⟩)
  | binary {ts us : List Token} {t : Token} {op : Char} {left right : Expr}
    (ofLeft : Expression table ts left) (operator : t.kind = .char op)
    (ofRight : Expression table us right) : Shape table (ts ++ t :: us) (.binary op left right)

mutual
theorem Operand.shape : ∀ {ts : List Token} {e : Expr}, Operand table ts e →
    ∃ us, us <:+: ts ∧ Shape table us e
  | _, _, .number t kind => ⟨_, List.infix_refl _, .number t kind⟩
  | _, _, .var t kind => ⟨_, List.infix_refl _, .var t kind⟩
  | _, _, .group opens inside closes => by
    obtain ⟨us, part, shape⟩ := inside.shape
    exact ⟨us, part.trans ⟨[_], [_], rfl⟩, shape⟩
  | _, _, .call named opens inside closes =>
    ⟨_, List.infix_refl _, .call named closes (Or.inr inside)⟩
  | _, _, @Operand.callEmpty _ name opening closing named opens closes => by
    have shape : Shape table (name :: opening :: ([] ++ [closing])) _ :=
      .call named closes (Or.inl rfl)
    exact ⟨_, List.infix_refl _, shape⟩

theorem Expression.shape : ∀ {ts : List Token} {e : Expr}, Expression table ts e →
    ∃ us, us <:+: ts ∧ Shape table us e
  | _, _, .operand alone => alone.shape
  | _, _, .binary ofLeft operator ofRight =>
    ⟨_, List.infix_refl _, .binary ofLeft (OperatorTable.operator?_eq_some operator).1 ofRight⟩
end

theorem infix_behind (ts us : List Token) (t : Token) : us <:+: ts ++ t :: us :=
  ((List.suffix_cons t us).trans (List.suffix_append ts (t :: us))).isInfix

/-- Every argument was read from a part of the word. -/
theorem Arguments.word_of_mem {args : List Expr} (inside : Arguments table ts args) :
    ∀ arg ∈ args, ∃ us, us <:+: ts ∧ Expression table us arg := by
  induction args generalizing ts with
  | nil => exact nofun
  | cons first args ih =>
    intro arg member
    cases inside with
    | one only =>
      rw [List.mem_singleton.1 member]
      exact ⟨ts, List.infix_refl ts, only⟩
    | more first separates others =>
      rcases List.mem_cons.1 member with rfl | later
      · exact ⟨_, (List.prefix_append _ _).isInfix, first⟩
      · obtain ⟨us, part, word⟩ := ih others arg later
        exact ⟨us, part.trans (infix_behind _ _ _), word⟩

/-- What is right below a node was read from a part of its word. -/
theorem Shape.word_of_child {child : Expr} (shape : Shape table ts e) (among : child ∈ e.children) :
    ∃ us, us <:+: ts ∧ Expression table us child := by
  cases shape with
  | number | var => cases among
  | call named closes inside =>
    rcases inside with rfl | inside
    · cases among
    · obtain ⟨us, part, word⟩ := inside.word_of_mem child among
      exact ⟨us, part.trans ⟨[_, _], [_], rfl⟩, word⟩
  | binary ofLeft operator ofRight =>
    rcases List.mem_cons.1 among with rfl | only
    · exact ⟨_, (List.prefix_append _ _).isInfix, ofLeft⟩
    · rw [List.mem_singleton.1 only]
      exact ⟨_, infix_behind _ _ _, ofRight⟩

/-- Every node was read from a part of the word. -/
theorem Expression.of_node (word : Expression table ts e) (node : e.Node n) :
    ∃ us, us <:+: ts ∧ Expression table us n := by
  induction node generalizing ts with
  | root e => exact ⟨ts, List.infix_refl _, word⟩
  | deeper among _ ih =>
    obtain ⟨us, part, shape⟩ := word.shape
    obtain ⟨vs, inner, ofChild⟩ := shape.word_of_child among
    obtain ⟨ws, innermost, ofNode⟩ := ih ofChild
    exact ⟨ws, innermost.trans (inner.trans part), ofNode⟩

/-! ### Stretches of a source -/

structure Stretch (source file : String) (ts : List Token) : Prop where
  scanned : ∀ t ∈ ts, t ∈ tokenize source file
  pieces : ∀ t ∈ ts, t.PieceOf file 0 source.toList
  ordered : ts.Pairwise Token.Before

theorem stretch_ofSource (source file : String) :
    Stretch source file (Cursor.ofSource source file).ahead := by
  obtain ⟨tokens, eq, pieces, ordered⟩ := scanned_pieces file 0 source.toList
  rw [Cursor.ofSource_eq eq]
  refine ⟨fun t member => ?_, pieces, ordered⟩
  rw [tokenize, eq]
  exact List.mem_append_left _ member

theorem Stretch.part (stretch : Stretch source file ts) (part : us <:+: ts) :
    Stretch source file us :=
  ⟨fun t member => stretch.scanned t (part.subset member),
    fun t member => stretch.pieces t (part.subset member), stretch.ordered.sublist part.sublist⟩

namespace Span.Reaches

theorem nonempty (reaches : s.Reaches ts) (stretch : Stretch source file ts) :
    s.start.offset < s.stop.offset := by
  cases reaches with
  | alone among operand eq =>
    rw [eq]
    exact (stretch.pieces _ among).start_lt_stop
  | @across t u inOrder operand closes eq =>
    have first := (stretch.pieces t (inOrder.subset (by simp))).start_lt_stop
    have last := (stretch.pieces u (inOrder.subset (by simp))).start_lt_stop
    have before : t.Before u := by simpa using stretch.ordered.sublist inOrder
    rw [eq]
    exact Nat.lt_trans first (Nat.lt_of_le_of_lt before last)

theorem after {t : Token} (reaches : s.Reaches ts) (earlier : ∀ u ∈ ts, t.Before u) :
    t.span.Before s := by
  obtain ⟨u, member, roots⟩ := reaches.starts
  rw [Span.Before, roots.start]
  exact earlier u member

theorem before {t : Token} (reaches : s.Reaches ts) (later : ∀ u ∈ ts, u.Before t) :
    s.Before t.span := by
  obtain ⟨u, member, -, stop⟩ := reaches.stops
  rw [Span.Before, stop]
  exact later u member

end Span.Reaches

theorem Stretch.proper {t : Token} (stretch : Stretch source file ts) (among : t ∈ ts) :
    t.span.start.offset < t.span.stop.offset :=
  (stretch.pieces t among).start_lt_stop

theorem Stretch.cuts {t : Token} (stretch : Stretch source file ts) (among : t ∈ ts) :
    t.span.Cuts source file t.text := by
  obtain ⟨-, -, front, back, eq, span⟩ := stretch.pieces t among
  rw [Nat.zero_add] at span
  exact ⟨front, back, eq, span⟩

/-- The first token of a word comes before all of the others. -/
theorem Stretch.first {t : Token} (stretch : Stretch source file (t :: ts)) :
    ∀ u ∈ ts, t.Before u :=
  (List.pairwise_cons.1 stretch.ordered).1

/-- A token in a word stands between those in front of it and those behind it. -/
theorem Stretch.middle {t : Token} (stretch : Stretch source file (ts ++ t :: us)) :
    (∀ u ∈ ts, u.Before t) ∧ ∀ u ∈ us, t.Before u := by
  obtain ⟨-, behind, across⟩ := List.pairwise_append.1 stretch.ordered
  exact ⟨fun u member => across u member t List.mem_cons_self, (List.pairwise_cons.1 behind).1⟩

/-! ### Places of nodes -/

/-- How the span of a node comes from tokens of the source and from what is right below it. -/
inductive Expr.Fits (source file : String) : Expr → Prop where
  | num {t : Token} (scanned : t ∈ tokenize source file) (kind : t.kind = .number)
    (cuts : t.span.Cuts source file t.text) : Fits source file (.num t.number t.span)
  | var {t : Token} (scanned : t ∈ tokenize source file) (kind : t.kind = .identifier)
    (cuts : t.span.Cuts source file t.text) : Fits source file (.var t.text t.span)
  | binary {t : Token} {op : Char} {left right : Expr} (scanned : t ∈ tokenize source file)
    (operator : t.kind = .char op) (behindLeft : left.span.Before t.span)
    (beforeRight : t.span.Before right.span) : Fits source file (.binary op left right)
  | call {name closing : Token} {args : List Expr} (named : name ∈ tokenize source file)
    (kind : name.kind = .identifier) (cuts : name.span.Cuts source file name.text)
    (closed : closing ∈ tokenize source file) (closes : closing.kind = .char ')')
    (apart : ∀ arg ∈ args, name.span.Before arg.span ∧ arg.span.Before closing.span)
    (inside : ∀ arg ∈ args, arg.span.StrictlyWithin ⟨name.span.start, closing.span.stop⟩) :
    Fits source file (.call name.text args ⟨name.span.start, closing.span.stop⟩)

/-- Where a node stands in a source: it begins with an identifier or number and ends with one
    or a bracket, and all nodes below it stand within it, those right below it in order and
    without overlap. -/
structure Expr.Placed (source file : String) (e : Expr) : Prop where
  starts : ∃ t ∈ tokenize source file, t.Roots e.span.start
  stops : ∃ t ∈ tokenize source file, t.Closes ∧ e.span.stop = t.span.stop
  nonempty : e.span.start.offset < e.span.stop.offset
  fits : e.Fits source file
  siblings : e.children.Pairwise fun left right => left.span.Before right.span
  nested : ∀ n, e.Node n → n.span.Within e.span

/-- Arguments stand in order, with a comma between two of them. -/
theorem Arguments.siblings {args : List Expr} (inside : Arguments table ts args)
    (stretch : Stretch source file ts) :
    args.Pairwise fun left right => left.span.Before right.span := by
  induction args generalizing ts with
  | nil => exact .nil
  | cons first args ih =>
    cases inside with
    | one only => exact List.pairwise_singleton _ _
    | more first separates others =>
      obtain ⟨before, behind⟩ := stretch.middle
      have rest := ih others (stretch.part (infix_behind _ _ _))
      refine List.pairwise_cons.2 ⟨fun arg later => ?_, rest⟩
      obtain ⟨us, part, word⟩ := others.word_of_mem arg later
      have left := first.reaches.before before
      have right := word.reaches.after fun u member => behind u (part.subset member)
      exact left.trans right (Nat.le_of_lt (stretch.proper (by simp)))

/-- The left operand ends before the operator and the right one begins behind it. -/
theorem Stretch.operands_apart {t : Token} {left right : Expr}
    (stretch : Stretch source file (ts ++ t :: us)) (ofLeft : Expression table ts left)
    (ofRight : Expression table us right) :
    left.span.Before t.span ∧ t.span.Before right.span := by
  obtain ⟨before, behind⟩ := stretch.middle
  exact ⟨ofLeft.reaches.before before, ofRight.reaches.after behind⟩

/-- An argument stands between the brackets. -/
theorem Arguments.between {name opening closing : Token} {args : List Expr} {arg : Expr}
    (inside : Arguments table ts args) (among : arg ∈ args)
    (stretch : Stretch source file (name :: opening :: (ts ++ [closing]))) :
    opening.span.Before arg.span ∧ arg.span.Before closing.span := by
  obtain ⟨us, part, word⟩ := inside.word_of_mem arg among
  have behind := stretch.part (List.suffix_cons _ _).isInfix
  have within := behind.part (List.suffix_cons _ _).isInfix
  refine ⟨word.reaches.after fun u member => ?_, word.reaches.before fun u member => ?_⟩
  · exact behind.first u (List.mem_append_left _ (part.subset member))
  · exact within.middle.1 u (part.subset member)

theorem Shape.fits (shape : Shape table ts e) (stretch : Stretch source file ts) :
    e.Fits source file := by
  have scanned := stretch.scanned
  cases shape with
  | number t kind => exact .num (scanned t (by simp)) kind (stretch.cuts (by simp))
  | var t kind => exact .var (scanned t (by simp)) kind (stretch.cuts (by simp))
  | @call name opening closing ts args named closes inside =>
    have between : ∀ arg ∈ args, opening.span.Before arg.span ∧ arg.span.Before closing.span := by
      rcases inside with rfl | inside
      · nofun
      · exact fun arg among => inside.between among stretch
    have first : name.span.Before opening.span := stretch.first opening (by simp)
    have name_proper := stretch.proper (t := name) (by simp)
    have opening_proper := stretch.proper (t := opening) (by simp)
    have closing_proper := stretch.proper (t := closing) (by simp)
    refine .call (scanned name (by simp)) named (stretch.cuts (by simp)) (scanned closing (by simp))
      closes (fun arg among => ?_) (fun arg among => ?_)
    all_goals
      obtain ⟨behind, before⟩ := between arg among
      simp only [Span.Before, Span.StrictlyWithin] at *
      omega
  | @binary ts us t op left right ofLeft operator ofRight =>
    obtain ⟨before, behind⟩ := stretch.operands_apart ofLeft ofRight
    exact .binary (scanned t (by simp)) operator before behind

theorem Shape.siblings (shape : Shape table ts e) (stretch : Stretch source file ts) :
    e.children.Pairwise fun left right => left.span.Before right.span := by
  cases shape with
  | number | var => exact .nil
  | call named closes inside =>
    rcases inside with rfl | inside
    · exact .nil
    · exact inside.siblings (stretch.part ⟨[_, _], [_], rfl⟩)
  | binary ofLeft operator ofRight =>
    obtain ⟨before, behind⟩ := stretch.operands_apart ofLeft ofRight
    exact List.pairwise_pair.2 (before.trans behind (Nat.le_of_lt (stretch.proper (by simp))))

/-- What is right below a node stands within it. -/
theorem Shape.child_within {child : Expr} (shape : Shape table ts e)
    (stretch : Stretch source file ts) (among : child ∈ e.children) :
    child.span.Within e.span := by
  cases shape.fits stretch with
  | num | var => cases among
  | call _ _ _ _ _ _ inside =>
    obtain ⟨starts, stops⟩ := inside child among
    exact ⟨Nat.le_of_lt starts, Nat.le_of_lt stops⟩
  | @binary _ op left right =>
    have proper : ∀ operand ∈ [left, right],
        operand.span.start.offset < operand.span.stop.offset := by
      intro operand member
      obtain ⟨us, part, word⟩ := shape.word_of_child member
      exact word.reaches.nonempty (stretch.part part)
    have apart : left.span.Before right.span :=
      (List.pairwise_cons.1 (shape.siblings stretch)).1 right (List.mem_singleton_self right)
    rw [Span.Before] at apart
    have left_proper := proper left (by simp)
    have right_proper := proper right (by simp)
    have starts : left.span.start.offset ≤ right.span.start.offset := by omega
    have stops : left.span.stop.offset ≤ right.span.stop.offset := by omega
    rcases List.mem_cons.1 among with rfl | only
    · exact ⟨Nat.le_refl _, stops⟩
    · rw [List.mem_singleton.1 only]
      exact ⟨starts, Nat.le_refl _⟩

/-- All nodes of an expression stand within it. -/
theorem Expression.nested (word : Expression table ts e) (stretch : Stretch source file ts)
    (node : e.Node n) : n.span.Within e.span := by
  induction node generalizing ts with
  | root e => exact .refl e.span
  | deeper among _ ih =>
    obtain ⟨us, part, shape⟩ := word.shape
    obtain ⟨vs, inner, ofChild⟩ := shape.word_of_child among
    have here := stretch.part part
    exact (ih ofChild (here.part inner)).trans (shape.child_within here among)

theorem Expression.placed (word : Expression table ts e) (stretch : Stretch source file ts) :
    e.Placed source file := by
  obtain ⟨t, first, roots⟩ := word.reaches.starts
  obtain ⟨u, last, closes⟩ := word.reaches.stops
  obtain ⟨us, part, shape⟩ := word.shape
  have here := stretch.part part
  exact {
    starts := ⟨t, stretch.scanned t first, roots⟩
    stops := ⟨u, stretch.scanned u last, closes⟩
    nonempty := word.reaches.nonempty stretch
    fits := shape.fits here
    siblings := shape.siblings here
    nested := fun _ node => word.nested stretch node }

/-- Wherever an expression is read from the tokens of a source, and with every table, each of
    its nodes is placed there. -/
theorem Parse.nodes_nested {c c' : Cursor}
    (reached : c.ahead <:+ (Cursor.ofSource source file).ahead)
    (read : (Parse.expression table).outcome c = (.ok e, c')) (node : e.Node n) :
    n.Placed source file := by
  obtain ⟨taken, ahead, word⟩ := Parse.word_of_expression read
  obtain ⟨us, part, ofNode⟩ := word.of_node node
  rw [ahead] at reached
  have stretch := (stretch_ofSource source file).part
    ((List.prefix_append taken c'.ahead).isInfix.trans reached.isInfix)
  exact ofNode.placed (stretch.part part)

/-- The second argument of a call, of which one operand stands in brackets. -/
theorem Parse.nodes_nested_in_call :
    let c := Cursor.ofSource "f((a), (1 + b) * c) + d" ""
    ∃ e c' n, (Parse.expression .standard).outcome c = (.ok e, c') ∧ e.Node n ∧
      n.span = .within "" 8 18 ∧ n.Placed "f((a), (1 + b) * c) + d" "" := by
  intro c
  have reads : (((Parse.expression .standard).outcome c).1.toOption.any fun e =>
      e.children.any fun call => call.children.any fun n => n.span = .within "" 8 18) = true := by
    unfold c
    decide +kernel
  cases read : (Parse.expression .standard).outcome c with
  | mk result c' =>
    rw [read] at reads
    cases result with
    | error d => cases reads
    | ok e =>
      obtain ⟨call, ofCall, among⟩ := List.any_eq_true.1 reads
      obtain ⟨n, ofNode, span⟩ := List.any_eq_true.1 among
      have node : e.Node n := .deeper ofCall (.deeper ofNode (.root n))
      exact ⟨e, c', n, rfl, node, of_decide_eq_true span,
        Parse.nodes_nested (List.suffix_refl _) read node⟩

end Reckon
