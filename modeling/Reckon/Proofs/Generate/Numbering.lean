/-
  The code of an expression up to its numbers.

  An expression has one code, but for the numbers that its values are given: where the same
  names are bound and callable under a renaming that takes the numbers to come to those to
  come, the codes correspond under it, instruction by instruction (`Code.renamed`).
-/
import Reckon.Proofs.Assembly.Renaming
import Reckon.Proofs.Meaning.Execution

namespace Reckon

section

variable {callees callees' : Callees} {scope scope' : Scope Value} {ρ : Renaming}
variable {low low' high : Nat}

/-- The next number goes to the next number. -/
theorem renamed_next (type : ValueType) {next next' : Nat} (le : low ≤ next) (lt : next < high)
    (shifts : ∀ n, low ≤ n → n < high → ρ.value n = low' + (n - low))
    (here : next' = low' + (next - low)) :
    (⟨next', type⟩ : Value) = (⟨next, type⟩ : Value).renamed ρ := by
  rw [Value.renamed, shifts next le lt, here]

mutual
theorem Code.renamed
    (called : ∀ name count h k, callees name count h → callees' name count k → k = ρ.handle h)
    (bound : ∀ name v w, scope.value? name = some v → scope'.value? name = some w →
      w = v.renamed ρ)
    (shifts : ∀ n, low ≤ n → n < high → ρ.value n = low' + (n - low)) :
    ∀ {first first' next next' : Nat} {e : Expr} {is is' : List Instruction} {v v' : Value},
      Code callees scope first e is v next → Code callees' scope' first' e is' v' next' →
      low ≤ first → next ≤ high → first' = low' + (first - low) →
        is' = is.map (·.renamed ρ) ∧ v' = v.renamed ρ ∧ next' = low' + (next - low)
  | first, _, _, _, _, _, _, _, _, .num _ x s, other, le, lt, start => by
    cases other
    have dest := renamed_next .double le lt shifts start
    rw [dest]
    exact ⟨rfl, rfl, by omega⟩
  | _, _, _, _, _, _, _, _, _, .var first s value, other, le, lt, start => by
    cases other with
    | var _ _ value' => exact ⟨rfl, bound _ _ _ value value', start⟩
  | _, _, _, _, _, _, _, _, _, @Code.arith _ _ _ _ next _ _ _ _ _ _ _ _ s operation ofLeft ofRight,
      other, le, lt, start => by
    cases other with
    | arith _ operation' ofLeft' ofRight' =>
      rw [operation] at operation'
      cases operation'
      -- The right operand begins with the number that the left one ends with, on both sides.
      have leLeft := ofLeft.le
      have leRight := ofRight.le
      obtain ⟨rfl, rfl, middle⟩ := ofLeft.renamed called bound shifts ofLeft' le (by omega) start
      obtain ⟨rfl, rfl, after⟩ :=
        ofRight.renamed called bound shifts ofRight' (by omega) (by omega) middle
      have dest := renamed_next .double (by omega) lt shifts after
      rw [dest]
      refine ⟨?_, rfl, by omega⟩
      simp only [List.map_append, List.map_singleton, Instruction.renamed]
    | lessThan _ operation' =>
      rw [operation] at operation'
      cases operation'
  | _, _, _, _, _, _, _, _, _, @Code.lessThan _ _ _ _ next _ _ _ _ _ _ _ s operation ofLeft ofRight,
      other, le, lt, start => by
    cases other with
    | arith _ operation' =>
      rw [operation] at operation'
      cases operation'
    | @lessThan _ _ next' _ _ _ _ _ _ _ _ operation' ofLeft' ofRight' =>
      have leLeft := ofLeft.le
      have leRight := ofRight.le
      obtain ⟨rfl, rfl, middle⟩ := ofLeft.renamed called bound shifts ofLeft' le (by omega) start
      obtain ⟨rfl, rfl, after⟩ :=
        ofRight.renamed called bound shifts ofRight' (by omega) (by omega) middle
      have truth := renamed_next .bool (by omega) (by omega) shifts after
      have later : next' + 1 = low' + (next + 1 - low) := by omega
      have dest := renamed_next .double (by omega) lt shifts later
      rw [truth, dest]
      refine ⟨?_, rfl, by omega⟩
      simp only [List.map_append, List.map_cons, List.map_nil, Instruction.renamed]
  | _, _, _, _, _, _, _, _, _, .call s found ofArgs, other, le, lt, start => by
    cases other with
    | call _ found' ofArgs' =>
      have leArgs := ofArgs.le
      obtain ⟨rfl, rfl, after⟩ := ofArgs.renamed called bound shifts ofArgs' le (by omega) start
      have callee := called _ _ _ _ found found'
      have dest := renamed_next .double (by omega) lt shifts after
      rw [dest, callee]
      refine ⟨?_, rfl, by omega⟩
      simp only [List.map_append, List.map_singleton, Instruction.renamed]

theorem CodeList.renamed
    (called : ∀ name count h k, callees name count h → callees' name count k → k = ρ.handle h)
    (bound : ∀ name v w, scope.value? name = some v → scope'.value? name = some w →
      w = v.renamed ρ)
    (shifts : ∀ n, low ≤ n → n < high → ρ.value n = low' + (n - low)) :
    ∀ {first first' next next' : Nat} {es : List Expr} {is is' : List Instruction}
      {vs vs' : List Value},
      CodeList callees scope first es is vs next →
      CodeList callees' scope' first' es is' vs' next' →
      low ≤ first → next ≤ high → first' = low' + (first - low) →
        is' = is.map (·.renamed ρ) ∧ vs' = vs.map (·.renamed ρ) ∧ next' = low' + (next - low)
  | _, _, _, _, _, _, _, _, _, .nil first, other, le, lt, start => by
    cases other
    exact ⟨rfl, rfl, start⟩
  | _, _, _, _, _, _, _, _, _, .cons ofHead ofTail, other, le, lt, start => by
    cases other with
    | cons ofHead' ofTail' =>
      have leHead := ofHead.le
      have leTail := ofTail.le
      obtain ⟨rfl, rfl, middle⟩ := ofHead.renamed called bound shifts ofHead' le (by omega) start
      obtain ⟨rfl, rfl, after⟩ :=
        ofTail.renamed called bound shifts ofTail' (by omega) lt middle
      exact ⟨List.map_append.symm, rfl, after⟩
end

end

end Reckon
