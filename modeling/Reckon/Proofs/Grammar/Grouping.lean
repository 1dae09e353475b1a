/-
  How operations are grouped.

  A flat sequence of operations is grouped by splitting it at its weakest operator, the
  last of several equally weak ones, and going on with what is on either side (`Splits`).
  The one pass over the sequence that keeps the waiting operations on a stack comes to the
  same tree, and to no other (`splits_iff`).  The reason is that a waiting operation which
  is weaker than all that follows stays at the bottom of the stack, and that an operator no
  stronger than those that wait closes them all.
-/
import Reckon.Grammar.Chain

namespace Reckon

structure Application where
  op : Char
  strength : Strength
  operand : Expr

/-- The tree of an operand and the operations after it, split at the last of the weakest. -/
inductive Splits : Expr → List Application → Expr → Prop where
  | atom (e : Expr) : Splits e [] e
  | split {first left right : Expr} {front back : List Application} {o : Application}
    (weakest : ∀ o' ∈ front, o.strength ≤ o'.strength)
    (last : ∀ o' ∈ back, o.strength < o'.strength)
    (ofLeft : Splits first front left) (ofRight : Splits o.operand back right) :
    Splits first (front ++ o :: back) (.binary o.op left right)

/-- The operations that wait, and the operand that the latest of them waits with. -/
abbrev Pending := List Link × Expr

namespace Pending

variable {p : Pending} {o : Application} {ops : List Application} {link : Link}

/-- The next operation of a sequence: those that wait and are no weaker get their operand. -/
def absorb (p : Pending) (o : Application) : Pending :=
  let (waiting, left) := Link.close o.strength p.1 p.2
  (⟨left, o.op, o.strength⟩ :: waiting, o.operand)

def whole (p : Pending) : Expr := Link.closeAll p.1 p.2

def tree (p : Pending) (ops : List Application) : Expr := (ops.foldl absorb p).whole

/-! ### Waiting at the bottom -/

theorem close_below (waiting : List Link) (e : Expr) {bound : Strength}
    (weaker : link.strength < bound) :
    Link.close bound (waiting ++ [link]) e =
      ((Link.close bound waiting e).1 ++ [link], (Link.close bound waiting e).2) := by
  induction waiting generalizing e with
  | nil =>
    have stays : ¬ bound ≤ link.strength := Int32.not_le.2 weaker
    simp [Link.close, stays]
  | cons other waiting ih =>
    simp only [List.cons_append, Link.close]
    split
    · exact ih _
    · rfl

theorem absorb_below (p : Pending) (weaker : link.strength < o.strength) :
    absorb (p.1 ++ [link], p.2) o = ((p.absorb o).1 ++ [link], (p.absorb o).2) := by
  simp only [absorb, close_below p.1 p.2 weaker, List.cons_append]

/-- A waiting operation that is weaker than all that follow keeps waiting. -/
theorem foldl_below (p : Pending) (weaker : ∀ o ∈ ops, link.strength < o.strength) :
    ops.foldl absorb (p.1 ++ [link], p.2) =
      ((ops.foldl absorb p).1 ++ [link], (ops.foldl absorb p).2) := by
  induction ops generalizing p with
  | nil => rfl
  | cons o ops ih =>
    rw [List.foldl_cons, absorb_below p (weaker o List.mem_cons_self)]
    exact ih _ fun o' member => weaker o' (List.mem_cons_of_mem o member)

theorem whole_below (waiting : List Link) (e : Expr) (link : Link) :
    whole (waiting ++ [link], e) = .binary link.op link.operand (whole (waiting, e)) := by
  induction waiting generalizing e with
  | nil => rfl
  | cons other waiting ih => exact ih _

/-- The operations after one that is weaker than all of them make its right operand. -/
theorem tree_below (e : Expr) (weaker : ∀ o ∈ ops, link.strength < o.strength) :
    tree ([link], e) ops = .binary link.op link.operand (tree ([], e) ops) := by
  have fold := foldl_below ([], e) weaker
  rw [List.nil_append] at fold
  rw [tree, fold, whole_below]
  rfl

/-! ### Closing what waits -/

theorem close_all {waiting : List Link} {bound : Strength} (e : Expr)
    (tighter : ∀ link ∈ waiting, bound ≤ link.strength) :
    Link.close bound waiting e = ([], whole (waiting, e)) := by
  induction waiting generalizing e with
  | nil => rfl
  | cons link waiting ih =>
    rw [Link.close, if_pos (tighter link List.mem_cons_self)]
    exact ih _ fun other member => tighter other (List.mem_cons_of_mem link member)

/-- An operation no stronger than those that wait takes their tree as its left operand. -/
theorem absorb_all (tighter : ∀ link ∈ p.1, o.strength ≤ link.strength) :
    p.absorb o = absorb ([], p.whole) o := by
  simp only [absorb, close_all p.2 tighter]
  rfl

/-- What waits may be closed where nothing follows that is stronger. -/
theorem tree_settled (tighter : ∀ o ∈ ops.head?, ∀ link ∈ p.1, o.strength ≤ link.strength) :
    p.tree ops = tree ([], p.whole) ops := by
  cases ops with
  | nil => rfl
  | cons o ops => simp only [tree, List.foldl_cons, absorb_all (tighter o rfl)]

theorem tree_append (p : Pending) (front back : List Application) :
    p.tree (front ++ back) = tree (front.foldl absorb p) back := by
  simp only [tree, List.foldl_append]

theorem mem_close {waiting : List Link} {bound : Strength} {e : Expr}
    (member : link ∈ (Link.close bound waiting e).1) : link ∈ waiting := by
  induction waiting generalizing e with
  | nil => cases member
  | cons other waiting ih =>
    unfold Link.close at member
    split at member
    · exact List.mem_cons_of_mem other (ih member)
    · exact member

theorem strength_foldl {P : Strength → Prop} (waits : ∀ link ∈ p.1, P link.strength)
    (follows : ∀ o ∈ ops, P o.strength) :
    ∀ link ∈ (ops.foldl absorb p).1, P link.strength := by
  induction ops generalizing p with
  | nil => exact waits
  | cons o ops ih =>
    apply ih
    · intro link member
      rcases List.mem_cons.1 member with rfl | old
      · exact follows o List.mem_cons_self
      · exact waits link (mem_close old)
    · exact fun o' member => follows o' (List.mem_cons_of_mem o member)

end Pending

/-! ### One tree -/

def Application.tree (first : Expr) (ops : List Application) : Expr := Pending.tree ([], first) ops

namespace Application

variable {first : Expr} {front back ops : List Application} {o : Application}

theorem tree_split (weakest : ∀ o' ∈ front, o.strength ≤ o'.strength)
    (last : ∀ o' ∈ back, o.strength < o'.strength) :
    tree first (front ++ o :: back) =
      .binary o.op (tree first front) (tree o.operand back) := by
  have waits : ∀ link ∈ (front.foldl Pending.absorb ([], first)).1, o.strength ≤ link.strength :=
    Pending.strength_foldl nofun weakest
  have settled : Pending.tree (front.foldl Pending.absorb ([], first)) (o :: back) =
      Pending.tree ([], tree first front) (o :: back) :=
    Pending.tree_settled (by simpa using waits)
  let link : Link := ⟨tree first front, o.op, o.strength⟩
  have below : Pending.tree ([link], o.operand) back = .binary o.op (tree first front)
      (tree o.operand back) := Pending.tree_below o.operand last
  rw [tree, Pending.tree_append, settled]
  exact below

theorem exists_last_weakest (nonempty : ops ≠ []) :
    ∃ front o back, ops = front ++ o :: back ∧ (∀ o' ∈ front, o.strength ≤ o'.strength) ∧
      ∀ o' ∈ back, o.strength < o'.strength := by
  induction ops with
  | nil => exact absurd rfl nonempty
  | cons x rest ih =>
    by_cases alone : rest = []
    · exact ⟨[], x, [], by rw [alone]; rfl, nofun, nofun⟩
    obtain ⟨front, o, back, rfl, weakest, last⟩ := ih alone
    by_cases weaker : x.strength < o.strength
    · refine ⟨[], x, front ++ o :: back, rfl, nofun, fun o' member => ?_⟩
      rcases List.mem_append.1 member with before | after
      · exact Int32.lt_of_lt_of_le weaker (weakest o' before)
      · rcases List.mem_cons.1 after with rfl | behind
        · exact weaker
        · exact Int32.lt_trans weaker (last o' behind)
    · refine ⟨x :: front, o, back, rfl, fun o' member => ?_, last⟩
      rcases List.mem_cons.1 member with rfl | before
      · exact Int32.not_lt.1 weaker
      · exact weakest o' before

theorem splits_tree (first : Expr) (ops : List Application) :
    Splits first ops (tree first ops) := by
  by_cases none : ops = []
  · rw [none]
    exact .atom first
  obtain ⟨front, o, back, eq, weakest, last⟩ := exists_last_weakest none
  have shorter : ops.length = front.length + (back.length + 1) := by simp [eq]
  rw [eq, tree_split weakest last]
  exact .split weakest last (splits_tree first front) (splits_tree o.operand back)
termination_by ops.length
decreasing_by all_goals omega

end Application

/-- The tree of the one pass is the one that splitting leads to. -/
theorem splits_iff {first e : Expr} {ops : List Application} :
    Splits first ops e ↔ e = Application.tree first ops := by
  constructor
  · intro splits
    induction splits with
    | atom e => rfl
    | split weakest last _ _ left right => rw [Application.tree_split weakest last, left, right]
  · rintro rfl
    exact Application.splits_tree first ops

end Reckon
