/-
  The languages of the grammar.

  A language is a relation between words of tokens and what they are read as.  Those of
  operands, expressions and arguments say nothing of how anything is read, nor of the
  strengths of operators: an expression is an operand, or two expressions with an operator
  between them, and every grouping of its operations is a derivation.  As a set of words it
  is `operand (operator operand)*`, which is `expression_iff`.
-/
import Reckon.Grammar.Construct

namespace Reckon

/-! ### Expressions -/

mutual
inductive Operand (table : OperatorTable) : List Token → Expr → Prop where
  | number (t : Token) (kind : t.kind = .number) : Operand table [t] (.num t.number t.span)
  | var (t : Token) (kind : t.kind = .identifier) : Operand table [t] (.var t.text t.span)
  | group {opening closing : Token} {ts : List Token} {e : Expr}
    (opens : opening.kind = .char '(') (inside : Expression table ts e)
    (closes : closing.kind = .char ')') : Operand table (opening :: (ts ++ [closing])) e
  | call {name opening closing : Token} {ts : List Token} {args : List Expr}
    (named : name.kind = .identifier) (opens : opening.kind = .char '(')
    (inside : Arguments table ts args) (closes : closing.kind = .char ')') :
    Operand table (name :: opening :: (ts ++ [closing]))
      (.call name.text args ⟨name.span.start, closing.span.stop⟩)
  | callEmpty {name opening closing : Token} (named : name.kind = .identifier)
    (opens : opening.kind = .char '(') (closes : closing.kind = .char ')') :
    Operand table [name, opening, closing]
      (.call name.text [] ⟨name.span.start, closing.span.stop⟩)

/-- The words that are expressions, with any grouping of their operations. -/
inductive Expression (table : OperatorTable) : List Token → Expr → Prop where
  | operand {ts : List Token} {e : Expr} (alone : Operand table ts e) : Expression table ts e
  | binary {ts us : List Token} {t : Token} {op : Char} {strength : Strength}
    {left right : Expr} (ofLeft : Expression table ts left)
    (operator : table.operator? t.kind = some (op, strength))
    (ofRight : Expression table us right) :
    Expression table (ts ++ t :: us) (.binary op left right)

inductive Arguments (table : OperatorTable) : List Token → List Expr → Prop where
  | one {ts : List Token} {e : Expr} (only : Expression table ts e) : Arguments table ts [e]
  | more {ts us : List Token} {comma : Token} {e : Expr} {es : List Expr}
    (first : Expression table ts e) (separates : comma.kind = .char ',')
    (others : Arguments table us es) : Arguments table (ts ++ comma :: us) (e :: es)
end

/-- An expression begins with an operand, and after that an operator stands before another
    expression. -/
theorem Expression.first {table : OperatorTable} : ∀ {ts : List Token} {e : Expr},
    Expression table ts e → (∃ e, Operand table ts e) ∨
      ∃ us t vs, ts = us ++ t :: vs ∧ (∃ e, Operand table us e) ∧
        (table.operator? t.kind).isSome ∧ ∃ e, Expression table vs e
  | _, _, .operand alone => Or.inl ⟨_, alone⟩
  | _, _, .binary ofLeft operator ofRight => by
    rcases ofLeft.first with only | ⟨xs, u, ys, rfl, only, isOperator, e, rest⟩
    · exact Or.inr ⟨_, _, _, rfl, only, by rw [operator]; rfl, _, ofRight⟩
    · have rest' := Expression.binary rest operator ofRight
      exact Or.inr ⟨xs, u, _, by simp, only, isOperator, _, rest'⟩

/-- As words, expressions are operands with operators between them. -/
theorem expression_iff {table : OperatorTable} {ts : List Token} :
    (∃ e, Expression table ts e) ↔
      (∃ e, Operand table ts e) ∨
      ∃ us t vs, ts = us ++ t :: vs ∧ (∃ e, Operand table us e) ∧
        (table.operator? t.kind).isSome ∧ ∃ e, Expression table vs e := by
  constructor
  · rintro ⟨e, derives⟩
    exact derives.first
  · rintro (⟨e, alone⟩ | ⟨us, t, vs, rfl, ⟨e, only⟩, isOperator, e', rest⟩)
    · exact ⟨e, .operand alone⟩
    · obtain ⟨⟨op, strength⟩, operator⟩ := Option.isSome_iff_exists.1 isOperator
      exact ⟨_, .binary (.operand only) operator rest⟩

/-! ### Constructs -/

inductive PrototypeWord : List Token → Prototype → Prop where
  | intro {name opening closing : Token} {params : List Token}
    (named : name.kind = .identifier) (opens : opening.kind = .char '(')
    (identifiers : ∀ t ∈ params, t.kind = .identifier) (closes : closing.kind = .char ')') :
    PrototypeWord (name :: opening :: (params ++ [closing]))
      ⟨name.text, params.map (·.text), ⟨name.span.start, closing.span.stop⟩⟩

inductive DefinitionWord (table : OperatorTable) : List Token → Definition → Prop where
  | intro {keyword : Token} {ts us : List Token} {p : Prototype} {e : Expr}
    (defines : keyword.kind = .defKeyword) (prototype : PrototypeWord ts p)
    (body : Expression table us e) : DefinitionWord table (keyword :: (ts ++ us)) ⟨p, e⟩

inductive ExternalWord : List Token → Prototype → Prop where
  | intro {keyword : Token} {ts : List Token} {p : Prototype}
    (declares : keyword.kind = .externKeyword) (prototype : PrototypeWord ts p) :
    ExternalWord (keyword :: ts) p

/-! ### Beginnings -/

def Viable {α : Type} (L : List Token → α → Prop) (ts : List Token) : Prop :=
  ∃ us a, L (ts ++ us) a

theorem Viable.of_prefix {α : Type} {L : List Token → α → Prop} {ts us : List Token}
    (viable : Viable L us) (le : ts <+: us) : Viable L ts := by
  obtain ⟨vs, rfl⟩ := le
  obtain ⟨ws, a, word⟩ := viable
  exact ⟨vs ++ ws, a, by rwa [← List.append_assoc]⟩

end Reckon
