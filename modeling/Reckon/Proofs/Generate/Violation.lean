/-
  What a body violates.

  A body is well-bound when its variables are parameters, its operators are those that code
  can be generated for, and its calls go to functions that take as many parameters as there
  are arguments (`Expr.WellBound`).  `Expr.violations` lists what stands against that, in a
  fixed order: for an operation what its operands violate and then its operator, for a call
  the function and then the arguments.  Neither speaks of generation.  A body is well-bound
  if it violates nothing (`violations_eq_nil_iff`).
-/
import Reckon.Diagnostic.Basic
import Reckon.Expr.Basic

namespace Reckon

/-- How many parameters the functions take that a body may call, by their names. -/
abbrev Signatures := String → Option Nat

def operators : List Char := ['+', '-', '*', '<']

namespace Expr

variable {takes : Signatures} {params : List String}

inductive WellBound (takes : Signatures) (params : List String) : Expr → Prop where
  | num (value : Float) (s : Span) : WellBound takes params (.num value s)
  | var {name : String} (s : Span) (bound : name ∈ params) : WellBound takes params (.var name s)
  | bin {op : Char} {left right : Expr} (s : Span) (operator : op ∈ operators)
    (ofLeft : WellBound takes params left) (ofRight : WellBound takes params right) :
    WellBound takes params (.bin op left right s)
  | call {callee : String} {args : List Expr} (s : Span)
    (known : takes callee = some args.length)
    (ofArgs : ∀ arg ∈ args, WellBound takes params arg) :
    WellBound takes params (.call callee args s)

theorem WellBound.mono {takes' : Signatures} {e : Expr} (bound : WellBound takes params e)
    (le : ∀ name count, takes name = some count → takes' name = some count) :
    WellBound takes' params e := by
  induction bound with
  | num value s => exact .num value s
  | var s bound => exact .var s bound
  | bin s operator _ _ ofLeft ofRight => exact .bin s operator ofLeft ofRight
  | call s known _ ofArgs => exact .call s (le _ _ known) ofArgs

/-! ### Violations in order -/

def operatorViolations (op : Char) (s : Span) : List Diagnostic :=
  if op ∈ operators then [] else [⟨.invalidOperator op, s.start⟩]

def calleeViolations (takes : Signatures) (callee : String) (received : Nat) (s : Span) :
    List Diagnostic :=
  match takes callee with
  | none => [⟨.unknownFunction callee, s.start⟩]
  | some expected =>
    if expected = received then [] else [⟨.argumentCount callee expected received, s.start⟩]

mutual
/-- What an expression violates, each at the start of the node that violates it. -/
def violations (takes : Signatures) (params : List String) : Expr → List Diagnostic
  | .num _ _ => []
  | .var name s => if name ∈ params then [] else [⟨.unknownVariable name, s.start⟩]
  | .bin op left right s =>
    left.violations takes params ++ (right.violations takes params ++ operatorViolations op s)
  | .call callee args s =>
    calleeViolations takes callee args.length s ++ violationsList takes params args

def violationsList (takes : Signatures) (params : List String) : List Expr → List Diagnostic
  | [] => []
  | e :: es => e.violations takes params ++ violationsList takes params es
end

theorem operatorViolations_eq_nil_iff {op : Char} {s : Span} :
    operatorViolations op s = [] ↔ op ∈ operators := by
  unfold operatorViolations
  split
  · exact iff_of_true rfl ‹_›
  · exact iff_of_false (List.cons_ne_nil _ _) ‹_›

theorem calleeViolations_eq_nil_iff {callee : String} {received : Nat} {s : Span} :
    calleeViolations takes callee received s = [] ↔ takes callee = some received := by
  unfold calleeViolations
  cases takes callee with
  | none => exact iff_of_false (List.cons_ne_nil _ _) nofun
  | some expected =>
    rw [Option.some.injEq]
    simp only
    split
    · exact iff_of_true rfl ‹_›
    · exact iff_of_false (List.cons_ne_nil _ _) ‹_›

mutual
/-- A body is well-bound exactly if it violates nothing. -/
theorem violations_eq_nil_iff : ∀ e : Expr,
    e.violations takes params = [] ↔ e.WellBound takes params
  | .num value s => by
    rw [violations]
    exact iff_of_true rfl (.num value s)
  | .var name s => by
    rw [violations]
    split
    · rename_i bound
      exact iff_of_true rfl (.var s bound)
    · rename_i unbound
      refine iff_of_false (List.cons_ne_nil _ _) ?_
      rintro ⟨⟩
      contradiction
  | .bin op left right s => by
    rw [violations, List.append_eq_nil_iff, List.append_eq_nil_iff, violations_eq_nil_iff left,
      violations_eq_nil_iff right, operatorViolations_eq_nil_iff]
    constructor
    · rintro ⟨ofLeft, ofRight, operator⟩
      exact .bin s operator ofLeft ofRight
    · rintro ⟨⟩
      exact ⟨‹_›, ‹_›, ‹_›⟩
  | .call callee args s => by
    rw [violations, List.append_eq_nil_iff, calleeViolations_eq_nil_iff,
      violationsList_eq_nil_iff args]
    constructor
    · rintro ⟨known, ofArgs⟩
      exact .call s known ofArgs
    · rintro ⟨⟩
      exact ⟨‹_›, ‹_›⟩

theorem violationsList_eq_nil_iff : ∀ es : List Expr,
    violationsList takes params es = [] ↔ ∀ e ∈ es, e.WellBound takes params
  | [] => by
    rw [violationsList]
    exact iff_of_true rfl (List.forall_mem_nil _)
  | e :: es => by
    rw [violationsList, List.append_eq_nil_iff, violations_eq_nil_iff e,
      violationsList_eq_nil_iff es, List.forall_mem_cons]
end

/-! ### Causes of violations -/

inductive Binding : Cause → Prop where
  | unknownVariable (name : String) : Binding (.unknownVariable name)
  | invalidOperator (op : Char) : Binding (.invalidOperator op)
  | unknownFunction (name : String) : Binding (.unknownFunction name)
  | argumentCount (function : String) (expected received : Nat) :
    Binding (.argumentCount function expected received)

mutual
theorem binding_of_violations : ∀ (e : Expr), ∀ d ∈ e.violations takes params, Binding d.cause
  | .num value s, d, member => by
    rw [violations] at member
    cases member
  | .var name s, d, member => by
    rw [violations] at member
    split at member
    · cases member
    · rw [List.mem_singleton.1 member]
      exact .unknownVariable name
  | .bin op left right s, d, member => by
    rw [violations] at member
    rcases List.mem_append.1 member with ofLeft | later
    · exact binding_of_violations left d ofLeft
    rcases List.mem_append.1 later with ofRight | operator
    · exact binding_of_violations right d ofRight
    unfold operatorViolations at operator
    split at operator
    · cases operator
    · rw [List.mem_singleton.1 operator]
      exact .invalidOperator op
  | .call callee args s, d, member => by
    rw [violations] at member
    rcases List.mem_append.1 member with ofCallee | ofArgs
    · unfold calleeViolations at ofCallee
      split at ofCallee
      · rw [List.mem_singleton.1 ofCallee]
        exact .unknownFunction callee
      split at ofCallee
      · cases ofCallee
      · rw [List.mem_singleton.1 ofCallee]
        exact .argumentCount callee _ args.length
    · exact binding_of_violationsList args d ofArgs

theorem binding_of_violationsList : ∀ (es : List Expr),
    ∀ d ∈ violationsList takes params es, Binding d.cause
  | [], d, member => by
    rw [violationsList] at member
    cases member
  | e :: es, d, member => by
    rw [violationsList] at member
    rcases List.mem_append.1 member with first | later
    · exact binding_of_violations e d first
    · exact binding_of_violationsList es d later
end

end Expr

end Reckon
