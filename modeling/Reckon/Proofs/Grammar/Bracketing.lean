/-
  Words with every operation in brackets.

  An operation that stands in brackets of its own leaves nothing to the strengths of the
  operators.  So such words (`Bracketed`) are read as their one tree, whatever table they are
  read with (`outcome_bracketed`), and so are prototypes and definitions around them.
-/
import Reckon.Proofs.Grammar.Acceptance
import Reckon.Grammar.Progress

namespace Reckon

variable {table : OperatorTable} {ts us rest : List Token} {e : Expr} {es : List Expr}

mutual
/-- The words that stand for a tree with brackets around each of its operations. -/
inductive Bracketed (table : OperatorTable) : List Token → Expr → Prop where
  | number (t : Token) (kind : t.kind = .number) : Bracketed table [t] (.num t.number t.span)
  | var (t : Token) (kind : t.kind = .identifier) : Bracketed table [t] (.var t.text t.span)
  | operation {opening closing t : Token} {ts us : List Token} {op : Char} {strength : Strength}
    {left right : Expr} (opens : opening.kind = .char '(') (ofLeft : Bracketed table ts left)
    (operator : table.operator? t.kind = some (op, strength)) (ofRight : Bracketed table us right)
    (closes : closing.kind = .char ')') :
    Bracketed table (opening :: (ts ++ t :: (us ++ [closing]))) (.binary op left right)
  | call {name opening closing : Token} {ts : List Token} {args : List Expr}
    (named : name.kind = .identifier) (opens : opening.kind = .char '(')
    (inside : BracketedArgs table ts args) (closes : closing.kind = .char ')') :
    Bracketed table (name :: opening :: (ts ++ [closing])) (Reader.callExpr name args closing)
  | callEmpty {name opening closing : Token} (named : name.kind = .identifier)
    (opens : opening.kind = .char '(') (closes : closing.kind = .char ')') :
    Bracketed table [name, opening, closing] (Reader.callExpr name [] closing)

inductive BracketedArgs (table : OperatorTable) : List Token → List Expr → Prop where
  | one {ts : List Token} {e : Expr} (only : Bracketed table ts e) : BracketedArgs table ts [e]
  | more {ts us : List Token} {comma : Token} {e : Expr} {es : List Expr}
    (first : Bracketed table ts e) (separates : comma.kind = .char ',')
    (others : BracketedArgs table us es) : BracketedArgs table (ts ++ comma :: us) (e :: es)
end

/-! ### Expressions -/

namespace Reader

mutual
theorem shiftAll_bracketed (delimits : table.Delimits) :
    ∀ {ts : List Token} {e : Expr}, Bracketed table ts e →
      ∀ {r : Reader} {brackets : List Bracket} {links : List Link},
      r.Begins (.whole table) brackets links →
      ∃ r', r.shiftAll (.whole table) ts = some r' ∧ r'.Ends brackets links e
  | _, _, .number t kind, r, brackets, links, begins =>
    ⟨_, shiftAll_cons (begins.shift_number kind), .read _ _ _⟩
  | _, _, .var t kind, r, brackets, links, begins =>
    ⟨_, shiftAll_cons (begins.shift_name kind), .name _ _ _⟩
  | _, _, @Bracketed.operation _ opening closing t ts us op strength left right opens ofLeft
      operator ofRight closes, r, brackets, links, begins => by
    have shifted := begins.shift_opening opens
    obtain ⟨r₁, first, ends⟩ :=
      shiftAll_bracketed delimits ofLeft (begins_operand _ (.group links :: brackets) [])
    obtain ⟨r₂, second, ends'⟩ := shiftAll_bracketed delimits ofRight
      (begins_operand _ (.group links :: brackets) [⟨left, op, strength⟩])
    have closed := (shiftAll_snoc second).trans (ends'.shift_closing_group delimits closes)
    refine ⟨_, ?_, .read _ _ _⟩
    rw [shiftAll_cons shifted, shiftAll_append_of first,
      shiftAll_cons (ends.shift_operator delimits operator)]
    exact closed
  | _, _, @Bracketed.call _ name _ _ _ _ named opens inside closes, r, brackets, links,
      begins => by
    obtain ⟨r₁, before, last, rfl, all, ends⟩ :=
      shiftAll_bracketedArgs delimits inside (begins_arguments _ brackets links name)
    have closed := (shiftAll_snoc all).trans (ends.shift_closing_call delimits closes)
    exact ⟨_, (begins.shiftAll_call named opens _).trans closed, .read _ _ _⟩
  | _, _, .callEmpty named opens closes, r, brackets, links, begins =>
    ⟨_, begins.shiftAll_callEmpty named opens closes, .read _ _ _⟩

/-- The reader has taken all arguments but the last, which the closing bracket will add. -/
theorem shiftAll_bracketedArgs (delimits : table.Delimits) :
    ∀ {ts : List Token} {es : List Expr}, BracketedArgs table ts es →
      ∀ {r : Reader} {brackets : List Bracket} {outer : List Link} {name : Token}
        {args : List Expr}, r.Begins (.whole table) (.call outer name args :: brackets) [] →
      ∃ r' before last, es = before ++ [last] ∧ r.shiftAll (.whole table) ts = some r' ∧
        r'.Ends (.call outer name (args ++ before) :: brackets) [] last
  | _, _, .one only, r, brackets, outer, name, args, begins => by
    obtain ⟨r₁, all, ends⟩ := shiftAll_bracketed delimits only begins
    rw [← List.append_nil args] at ends
    exact ⟨r₁, [], _, rfl, all, ends⟩
  | _, _, @BracketedArgs.more _ ts us comma e es first separates others, r, brackets, outer, name,
      args, begins => by
    obtain ⟨r₁, all, ends⟩ := shiftAll_bracketed delimits first begins
    obtain ⟨r₂, before, last, rfl, rest, ends'⟩ :=
      shiftAll_bracketedArgs delimits others
        (begins_operand _ (.call outer name (args ++ [e]) :: brackets) [])
    rw [List.append_assoc] at ends'
    refine ⟨r₂, e :: before, last, rfl, ?_, ends'⟩
    rw [shiftAll_append_of all, shiftAll_cons (ends.shift_comma delimits separates)]
    exact rest
end

theorem run_of_shiftAll {g : Reading} {r r' : Reader} (all : r.shiftAll g ts = some r') :
    r.run g ts = (r', []) := by
  induction ts generalizing r with
  | nil =>
    cases all
    rfl
  | cons t ts ih =>
    obtain ⟨s, first, others⟩ := Option.bind_eq_some_iff.1 all
    rw [run, first]
    exact ih others

end Reader

namespace Parse

variable {c : Cursor} {p : Prototype} {kind : TokenKind} {t : Token}

/-- A bracketed word that is all there is ahead is read as its tree. -/
theorem outcome_bracketed (delimits : table.Delimits) (word : Bracketed table c.ahead e) :
    (expression table).outcome c = (.ok e, { c with ahead := [] }) := by
  obtain ⟨r, all, ends⟩ :=
    Reader.shiftAll_bracketed delimits word (Reader.begins_operand _ [] [])
  rw [expression, outcome_read, Reader.start, Reader.run_of_shiftAll all]
  simp only
  rw [ends.settle]
  rfl

/-! ### Constructs -/

theorem outcome_bind_ok {α β : Type} {p : Parse α} {f : α → Parse β} {a : α} {c' : Cursor}
    (ok : p.outcome c = (.ok a, c')) : (p >>= f).outcome c = (f a).outcome c' := by
  rw [outcome_bind, ok]

theorem takeNames_params {params : List Token} (identifiers : ∀ t ∈ params, t.kind = .identifier)
    (other : t.kind ≠ .identifier) :
    takeNames (params ++ t :: rest) = (params.map (·.text), t :: rest) := by
  induction params with
  | nil => simp [takeNames, other]
  | cons u params ih =>
    have identifier := identifiers u List.mem_cons_self
    have later := ih fun v member => identifiers v (List.mem_cons_of_mem u member)
    rw [List.cons_append, takeNames, if_pos identifier, later]
    rfl

theorem outcome_expect_ahead (what : Expectation) (ahead : c.ahead = t :: rest)
    (here : t.kind = kind) : (expect kind what).outcome c = (.ok t, { c with ahead := rest }) := by
  have hand : c.current = t := by rw [Cursor.current, ahead, List.headD_cons]
  rw [outcome_expect, Cursor.kind, hand, if_pos here, Cursor.advance, ahead, List.tail_cons]

theorem outcome_prototypeWord (word : PrototypeWord ts p) (ahead : c.ahead = ts ++ rest) :
    prototype.outcome c = (.ok p, { c with ahead := rest }) := by
  cases word with
  | @intro name opening closing params named opens identifiers closes =>
    have other : closing.kind ≠ .identifier := by rw [closes]; decide
    have tail : params ++ [closing] ++ rest = params ++ closing :: rest := by simp
    rw [List.cons_append, List.cons_append, tail] at ahead
    have read := outcome_names { c with ahead := params ++ closing :: rest }
    rw [takeNames_params identifiers other] at read
    rw [prototype, outcome_bind_ok (outcome_expect_ahead _ ahead named),
      outcome_bind_ok (outcome_expect_ahead _ rfl opens), outcome_bind_ok read,
      outcome_bind_ok (outcome_expect_ahead _ rfl closes)]
    rfl

theorem outcome_definitionWord (delimits : table.Delimits) (prototype : PrototypeWord ts p)
    (body : Bracketed table us e) (ahead : c.ahead = t :: (ts ++ us)) :
    (definition table).outcome c = (.ok ⟨p, e⟩, { c with ahead := [] }) := by
  have after : c.advance.ahead = ts ++ us := by rw [Cursor.advance, ahead, List.tail_cons]
  rw [definition, outcome_bind_ok (outcome_next c),
    outcome_bind_ok (outcome_prototypeWord prototype after),
    outcome_bind_ok (outcome_bracketed delimits body)]
  rfl

theorem outcome_topLevelWord (delimits : table.Delimits) (word : Bracketed table c.ahead e) :
    (topLevel table).outcome c = (.ok (.anonymous e), { c with ahead := [] }) := by
  rw [topLevel, outcome_bind_ok (outcome_bracketed delimits word)]
  rfl

end Parse

end Reckon
