/-
  What the reader accepts.

  `Reads` says which word a state of the reader has taken: the open brackets, the links of
  the innermost chain and the stage each account for a part of it.  Every shift keeps it
  (`Reads.shift`), whatever was read can be continued to an expression (`Reads.viable`),
  and where the reader is satisfied the word is an expression with the tree it has built
  (`Reads.derives`).

  In the other direction `shiftAll_expression` says that the reader takes every word of the
  language, where brackets and commas are no operators.
-/
import Reckon.Proofs.Grammar.Sentence

namespace Reckon

/-! ### Operators -/

abbrev Reading.whole (table : OperatorTable) : Reading := ⟨table, .chain 0⟩

structure OperatorTable.Delimits (table : OperatorTable) : Prop where
  opening : table.operator? (.char '(') = none
  closing : table.operator? (.char ')') = none
  comma : table.operator? (.char ',') = none

/-- Tokens of this kind stand between expressions and never within one. -/
structure OperatorTable.Separates (table : OperatorTable) (kind : TokenKind) : Prop where
  notName : kind ≠ .identifier
  notNumber : kind ≠ .number
  notOpening : kind ≠ .char '('
  notClosing : kind ≠ .char ')'
  notComma : kind ≠ .char ','
  noOperator : table.operator? kind = none

theorem OperatorTable.strength_pos {table : OperatorTable} {kind : TokenKind} {op : Char}
    {strength : Strength} (found : table.operator? kind = some (op, strength)) :
    0 < strength := by
  unfold OperatorTable.operator? at found
  repeat' split at found
  all_goals cases found
  assumption

theorem Reading.operatorHere_whole (table : OperatorTable) (brackets : List Bracket)
    (kind : TokenKind) : (whole table).operatorHere brackets kind = table.operator? kind := by
  cases brackets with
  | cons bracket rest => rfl
  | nil =>
    cases found : table.operator? kind with
    | none => simp [operatorHere, found]
    | some entry =>
      have le := Int32.le_of_lt (OperatorTable.strength_pos found)
      simp [operatorHere, found, le]

/-! ### Shifting words -/

namespace Reader

variable {g : Reading} {r r' : Reader} {ts us : List Token} {t : Token}

def shiftAll (g : Reading) (r : Reader) : List Token → Option Reader
  | [] => some r
  | t :: ts => (r.shift g t).bind fun r' => r'.shiftAll g ts

theorem shiftAll_append (g : Reading) (r : Reader) (ts us : List Token) :
    r.shiftAll g (ts ++ us) = (r.shiftAll g ts).bind fun r' => r'.shiftAll g us := by
  induction ts generalizing r with
  | nil => rfl
  | cons t ts ih =>
    simp only [List.cons_append, shiftAll]
    cases r.shift g t with
    | none => rfl
    | some r' => exact ih r'

theorem shiftAll_cons (shifted : r.shift g t = some r') :
    r.shiftAll g (t :: ts) = r'.shiftAll g ts := by
  simp only [shiftAll, shifted, Option.bind_some]

theorem shiftAll_append_of (shifted : r.shiftAll g ts = some r') :
    r.shiftAll g (ts ++ us) = r'.shiftAll g us := by
  rw [shiftAll_append, shifted, Option.bind_some]

theorem shiftAll_snoc (shifted : r.shiftAll g ts = some r') :
    r.shiftAll g (ts ++ [t]) = r'.shift g t := by
  rw [shiftAll_append_of shifted]
  simp only [shiftAll]
  cases r'.shift g t <;> rfl

/-- No expression goes on with a token that begins no operand, is no operator and has no
    part in brackets. -/
theorem shift_separator (g : Reading) (r : Reader) (separates : g.table.Separates t.kind) :
    r.shift g t = none := by
  obtain ⟨notName, notNumber, notOpening, notClosing, notComma, noOperator⟩ := separates
  have operand : ∀ brackets links, shiftOperand brackets links t = none := by
    intro brackets links
    unfold shiftOperand
    split
    · contradiction
    · contradiction
    · contradiction
    · rfl
  have no_operator : ∀ brackets, g.operatorHere brackets t.kind = none := by
    intro brackets
    obtain ⟨table, reach⟩ := g
    cases brackets <;> cases reach <;> simp_all [Reading.operatorHere]
  have after : ∀ brackets links e, shiftAfter g brackets links e t = none := by
    intro brackets links e
    unfold shiftAfter
    rw [no_operator]
    rcases brackets with _ | ⟨_ | _, _⟩ <;> simp [notClosing, notComma]
  unfold shift
  split
  · exact operand _ _
  · simp [notOpening, after]
  · simp [notClosing, operand]
  · exact after _ _ _

/-- No expression goes on with an end of input. -/
theorem shift_eof (g : Reading) (r : Reader) (kind : t.kind = .eof) : r.shift g t = none := by
  apply shift_separator
  rw [kind]
  exact ⟨nofun, nofun, nofun, nofun, nofun, rfl⟩

/-- A run shifts a word and stops at a token that cannot be shifted. -/
theorem run_stops (g : Reading) (r : Reader) (tokens : List Token) :
    ∃ taken, tokens = taken ++ (r.run g tokens).2 ∧
      r.shiftAll g taken = some (r.run g tokens).1 ∧
      ∀ t rest, (r.run g tokens).2 = t :: rest → (r.run g tokens).1.shift g t = none := by
  induction tokens generalizing r with
  | nil => exact ⟨[], rfl, rfl, fun _ _ left => nomatch left⟩
  | cons t rest ih =>
    unfold run
    cases shifted : r.shift g t with
    | none =>
      refine ⟨[], rfl, rfl, fun u us left => ?_⟩
      cases left
      exact shifted
    | some r' =>
      obtain ⟨taken, eq, all, stops⟩ := ih r'
      exact ⟨t :: taken, congrArg (t :: ·) eq, (shiftAll_cons shifted).trans all, stops⟩

end Reader

/-! ### What a state has read -/

section Reads

variable {table : OperatorTable} {ts us ws : List Token} {t : Token} {e : Expr}
variable {links : List Link} {brackets : List Bracket} {r r' : Reader}

/-- The word of the links of a chain, the latest link first: each is an operand and an
    operator. -/
inductive Linked (table : OperatorTable) : List Token → List Link → Prop where
  | nil : Linked table [] []
  | snoc {ts us : List Token} {t : Token} {e : Expr} {op : Char} {strength : Strength}
    {links : List Link} (before : Linked table ts links) (operand : Operand table us e)
    (operator : table.operator? t.kind = some (op, strength)) :
    Linked table (ts ++ (us ++ [t])) (⟨e, op, strength⟩ :: links)

inductive Given (table : OperatorTable) : List Token → List Expr → Prop where
  | nil : Given table [] []
  | snoc {ts us : List Token} {comma : Token} {args : List Expr} {e : Expr}
    (before : Given table ts args) (last : Expression table us e)
    (separates : comma.kind = .char ',') : Given table (ts ++ (us ++ [comma])) (args ++ [e])

inductive Opened (table : OperatorTable) : List Token → List Bracket → Prop where
  | nil : Opened table [] []
  | group {ts us : List Token} {opening : Token} {brackets : List Bracket} {links : List Link}
    (before : Opened table ts brackets) (linked : Linked table us links)
    (opens : opening.kind = .char '(') :
    Opened table (ts ++ (us ++ [opening])) (.group links :: brackets)
  | call {ts us vs : List Token} {name opening : Token} {brackets : List Bracket}
    {links : List Link} {args : List Expr} (before : Opened table ts brackets)
    (linked : Linked table us links) (named : name.kind = .identifier)
    (opens : opening.kind = .char '(') (given : Given table vs args) :
    Opened table (ts ++ (us ++ name :: opening :: vs)) (.call links name args :: brackets)

inductive Reads (table : OperatorTable) : Reader → List Token → Prop where
  | operand {ts us : List Token} {brackets : List Bracket} {links : List Link}
    (opened : Opened table ts brackets) (linked : Linked table us links) :
    Reads table ⟨brackets, links, .operand⟩ (ts ++ us)
  | name {ts us : List Token} {brackets : List Bracket} {links : List Link} {name : Token}
    (opened : Opened table ts brackets) (linked : Linked table us links)
    (named : name.kind = .identifier) :
    Reads table ⟨brackets, links, .name name⟩ (ts ++ (us ++ [name]))
  | arguments {ts us : List Token} {brackets : List Bracket} {links : List Link}
    {name opening : Token} (opened : Opened table ts brackets) (linked : Linked table us links)
    (named : name.kind = .identifier) (opens : opening.kind = .char '(') :
    Reads table ⟨brackets, links, .arguments name⟩ (ts ++ (us ++ [name, opening]))
  | read {ts us ws : List Token} {brackets : List Bracket} {links : List Link} {e : Expr}
    (opened : Opened table ts brackets) (linked : Linked table us links)
    (operand : Operand table ws e) :
    Reads table ⟨brackets, links, .read e⟩ (ts ++ (us ++ ws))

theorem Given.arguments {vs : List Token} {args es : List Expr} (given : Given table vs args)
    (rest : Arguments table ws es) : Arguments table (vs ++ ws) (args ++ es) := by
  induction given generalizing ws es with
  | nil => exact rest
  | snoc before last separates ih =>
    have more := ih (.more last separates rest)
    simpa only [List.append_assoc, List.cons_append, List.nil_append] using more

/-! ### The tree of a chain -/

/-- The word of the operations that wait for their right operand, the latest first. -/
inductive Waiting (table : OperatorTable) : List Token → List Link → Prop where
  | nil : Waiting table [] []
  | snoc {ts us : List Token} {t : Token} {e : Expr} {op : Char} {strength : Strength}
    {links : List Link} (before : Waiting table ts links) (left : Expression table us e)
    (operator : table.operator? t.kind = some (op, strength)) :
    Waiting table (ts ++ (us ++ [t])) (⟨e, op, strength⟩ :: links)

theorem Waiting.close {waiting : List Link} (bound : Strength) (waits : Waiting table ts waiting)
    (right : Expression table us e) : ∃ ts' us', ts ++ us = ts' ++ us' ∧
      Waiting table ts' (Link.close bound waiting e).1 ∧
      Expression table us' (Link.close bound waiting e).2 := by
  induction waits generalizing us e with
  | nil => exact ⟨[], us, rfl, .nil, right⟩
  | @snoc ts ws t left op strength links before ofLeft operator ih =>
    unfold Link.close
    by_cases closes : bound ≤ strength
    · simp only [closes, if_true]
      obtain ⟨ts', us', eq, waits', right'⟩ := ih (.binary ofLeft operator right)
      exact ⟨ts', us', by rw [← eq]; simp, waits', right'⟩
    · simp only [closes, if_false]
      exact ⟨_, us, rfl, .snoc before ofLeft operator, right⟩

theorem Waiting.closeAll {waiting : List Link} (waits : Waiting table ts waiting)
    (right : Expression table us e) : Expression table (ts ++ us) (Link.closeAll waiting e) := by
  induction waits generalizing us e with
  | nil => exact right
  | snoc before ofLeft operator ih =>
    have whole := ih (.binary ofLeft operator right)
    simpa only [Link.closeAll, List.append_assoc, List.cons_append, List.nil_append] using whole

/-- The links of a chain, put on the stack one after the other, wait there. -/
theorem Linked.waiting (linked : Linked table ts links) :
    Waiting table ts (links.reverse.foldl Link.push []) := by
  induction linked with
  | nil => exact .nil
  | @snoc ts us t e op strength links before operand operator ih =>
    rw [List.reverse_cons, List.foldl_append, List.foldl_cons, List.foldl_nil]
    obtain ⟨ts', us', eq, waits, left⟩ := ih.close strength (.operand operand)
    rw [← List.append_assoc, eq, List.append_assoc]
    exact .snoc waits left operator

/-- The tree of a chain is one of its derivations. -/
theorem Linked.tree (linked : Linked table us links) (operand : Operand table ws e) :
    Expression table (us ++ ws) (Link.tree links.reverse e) :=
  linked.waiting.closeAll (.operand operand)

/-! ### Soundness -/

theorem reads_start (table : OperatorTable) : Reads table Reader.start [] :=
  .operand .nil .nil

theorem Reads.shiftOperand (opened : Opened table ts brackets) (linked : Linked table us links)
    (shifted : Reader.shiftOperand brackets links t = some r') :
    Reads table r' (ts ++ (us ++ [t])) := by
  unfold Reader.shiftOperand at shifted
  split at shifted
  · rename_i identifier
    cases shifted
    exact .name opened linked identifier
  · rename_i number
    cases shifted
    exact .read opened linked (.number t number)
  · rename_i opens
    cases shifted
    have inside := Reads.operand (.group opened linked opens) .nil
    rwa [List.append_nil] at inside
  · cases shifted

theorem Reads.shiftAfter (opened : Opened table ts brackets) (linked : Linked table us links)
    (operand : Operand table ws e)
    (shifted : Reader.shiftAfter (.whole table) brackets links e t = some r') :
    Reads table r' (ts ++ (us ++ (ws ++ [t]))) := by
  unfold Reader.shiftAfter at shifted
  rw [Reading.operatorHere_whole] at shifted
  have whole := linked.tree operand
  split at shifted
  · rename_i op strength operator
    cases shifted
    exact .operand opened (.snoc linked operand operator)
  · cases opened with
    | nil => cases shifted
    | group before outer opens =>
      simp only at shifted
      split at shifted
      · rename_i closes
        cases shifted
        have bracketed := Reads.read before outer (.group opens whole closes)
        simpa only [List.append_assoc, List.cons_append, List.nil_append] using bracketed
      · cases shifted
    | call before outer named opens given =>
      simp only at shifted
      split at shifted
      · rename_i closes
        cases shifted
        have args := given.arguments (.one whole)
        have called := Reads.read before outer (.call named opens args closes)
        simpa only [Reader.callExpr, List.append_assoc, List.cons_append, List.nil_append]
          using called
      · split at shifted
        · rename_i separates
          cases shifted
          have next := Opened.call before outer named opens (.snoc given whole separates)
          have waits := Reads.operand next .nil
          simpa only [List.append_assoc, List.cons_append, List.append_nil] using waits
        · cases shifted

/-- What a state has read and the token that it shifts is what the next state has read. -/
theorem Reads.shift (reads : Reads table r ts) (shifted : r.shift (.whole table) t = some r') :
    Reads table r' (ts ++ [t]) := by
  cases reads with
  | operand opened linked =>
    rw [List.append_assoc]
    exact .shiftOperand opened linked shifted
  | name opened linked named =>
    simp only [Reader.shift] at shifted
    split at shifted
    · rename_i opens
      cases shifted
      have called := Reads.arguments opened linked named opens
      simpa only [List.append_assoc, List.cons_append, List.nil_append] using called
    · have after := Reads.shiftAfter opened linked (.var _ named) shifted
      simpa only [List.append_assoc] using after
  | arguments opened linked named opens =>
    simp only [Reader.shift] at shifted
    split at shifted
    · rename_i closes
      cases shifted
      have called := Reads.read opened linked (.callEmpty named opens closes)
      simpa only [Reader.callExpr, List.append_assoc, List.cons_append, List.nil_append]
        using called
    · have first := Reads.shiftOperand (.call opened linked named opens .nil) .nil shifted
      simpa only [List.append_assoc, List.cons_append, List.nil_append] using first
  | read opened linked operand =>
    have after := Reads.shiftAfter opened linked operand shifted
    simpa only [List.append_assoc] using after

theorem Reads.shiftAll (reads : Reads table r ts)
    (shifted : r.shiftAll (.whole table) us = some r') : Reads table r' (ts ++ us) := by
  induction us generalizing r ts with
  | nil =>
    cases shifted
    rwa [List.append_nil]
  | cons t rest ih =>
    obtain ⟨r₁, first, others⟩ := Option.bind_eq_some_iff.1 shifted
    have done := ih (reads.shift first) others
    rwa [List.append_assoc] at done

/-- Where the reader is satisfied, the word is an expression, and the tree derives it. -/
theorem Reads.derives (reads : Reads table r ts) (settled : r.settle = .ok e) :
    Expression table ts e := by
  have after : ∀ {ts us ws : List Token} {brackets : List Bracket} {links : List Link}
      {e' : Expr}, Opened table ts brackets → Linked table us links → Operand table ws e' →
      Reader.settleAfter brackets links e' = .ok e → Expression table (ts ++ (us ++ ws)) e := by
    intro ts us ws brackets links e' opened linked operand settled
    cases opened with
    | nil =>
      cases settled
      exact linked.tree operand
    | group => cases settled
    | call => cases settled
  cases reads with
  | operand => cases settled
  | arguments => cases settled
  | name opened linked named => exact after opened linked (.var _ named) settled
  | read opened linked operand => exact after opened linked operand settled

/-! ### Going on -/

/-- After an operand the open brackets can be closed. -/
theorem viable_after (opened : Opened table ts brackets) (linked : Linked table us links)
    (operand : Operand table ws e) : Viable (Expression table) (ts ++ (us ++ ws)) := by
  let closing : Token := { (default : Token) with kind := .char ')' }
  have closes : closing.kind = .char ')' := rfl
  induction opened generalizing us ws e links with
  | nil => exact ⟨[], _, by simpa using linked.tree operand⟩
  | group before outer opens ih =>
    obtain ⟨more, e', derives⟩ := ih outer (.group opens (linked.tree operand) closes)
    refine ⟨closing :: more, e', ?_⟩
    simpa only [List.append_assoc, List.cons_append, List.nil_append] using derives
  | call before outer named opens given ih =>
    have args := given.arguments (.one (linked.tree operand))
    obtain ⟨more, e', derives⟩ := ih outer (.call named opens args closes)
    refine ⟨closing :: more, e', ?_⟩
    simpa only [List.append_assoc, List.cons_append, List.nil_append] using derives

/-- Whatever a state has read can be continued to an expression. -/
theorem Reads.viable (reads : Reads table r ts) : Viable (Expression table) ts := by
  cases reads with
  | operand opened linked =>
    let number : Token := { (default : Token) with kind := .number }
    have viable := viable_after opened linked (.number number rfl)
    exact viable.of_prefix ⟨[number], by simp⟩
  | name opened linked named => exact viable_after opened linked (.var _ named)
  | @arguments ts us brackets links name opening opened linked named opens =>
    let closing : Token := { (default : Token) with kind := .char ')' }
    have closes : closing.kind = .char ')' := rfl
    have viable := viable_after opened linked (.callEmpty named opens closes)
    exact viable.of_prefix ⟨[closing], by simp⟩
  | read opened linked operand => exact viable_after opened linked operand

end Reads

/-! ### Completeness -/

namespace Reader

variable {table : OperatorTable} {g : Reading} {r : Reader} {t : Token} {e : Expr}
variable {brackets : List Bracket} {links : List Link}

/-- In this state an operand begins: after the brackets and links, which may still have to
    be opened. -/
def Begins (g : Reading) (r : Reader) (brackets : List Bracket) (links : List Link) : Prop :=
  ∀ t : Token, t.kind ≠ .char ')' → r.shift g t = shiftOperand brackets links t

theorem begins_operand (g : Reading) (brackets : List Bracket) (links : List Link) :
    Begins g ⟨brackets, links, .operand⟩ brackets links :=
  fun _ _ => rfl

theorem begins_arguments (g : Reading) (brackets : List Bracket) (links : List Link)
    (name : Token) :
    Begins g ⟨brackets, links, .arguments name⟩ (.call links name [] :: brackets) [] :=
  fun _ ne => if_neg ne

theorem Begins.shift_name (begins : r.Begins g brackets links) (named : t.kind = .identifier) :
    r.shift g t = some ⟨brackets, links, .name t⟩ := by
  rw [begins t (by simp [named]), shiftOperand, named]

theorem Begins.shift_number (begins : r.Begins g brackets links) (kind : t.kind = .number) :
    r.shift g t = some ⟨brackets, links, .read (.num t.number t.span)⟩ := by
  rw [begins t (by simp [kind]), shiftOperand, kind]

theorem Begins.shift_opening (begins : r.Begins g brackets links) (opens : t.kind = .char '(') :
    r.shift g t = some ⟨.group links :: brackets, [], .operand⟩ := by
  rw [begins t (by simp [opens]), shiftOperand, opens]
  rfl

theorem Begins.shiftAll_call {name opening : Token} (begins : r.Begins g brackets links)
    (named : name.kind = .identifier) (opens : opening.kind = .char '(') (ts : List Token) :
    r.shiftAll g (name :: opening :: ts) =
      shiftAll g ⟨brackets, links, .arguments name⟩ ts := by
  rw [shiftAll_cons (begins.shift_name named)]
  exact shiftAll_cons (if_pos opens)

theorem Begins.shiftAll_callEmpty {name opening closing : Token}
    (begins : r.Begins g brackets links) (named : name.kind = .identifier)
    (opens : opening.kind = .char '(') (closes : closing.kind = .char ')') :
    r.shiftAll g [name, opening, closing] =
      some ⟨brackets, links, .read (callExpr name [] closing)⟩ := by
  rw [begins.shiftAll_call named opens]
  exact shiftAll_cons (if_pos closes)

inductive Ends : Reader → List Bracket → List Link → Expr → Prop where
  | read (brackets : List Bracket) (links : List Link) (e : Expr) :
    Ends ⟨brackets, links, .read e⟩ brackets links e
  | name (brackets : List Bracket) (links : List Link) (t : Token) :
    Ends ⟨brackets, links, .name t⟩ brackets links (.var t.text t.span)

theorem Ends.shift (ends : r.Ends brackets links e) (ne : t.kind ≠ .char '(') :
    r.shift g t = shiftAfter g brackets links e t := by
  cases ends with
  | read => rfl
  | name => exact if_neg ne

theorem Ends.settle (ends : r.Ends brackets links e) :
    r.settle = settleAfter brackets links e := by
  cases ends <;> rfl

theorem Ends.shift_operator {op : Char} {strength : Strength}
    (ends : r.Ends brackets links e) (delimits : table.Delimits)
    (operator : table.operator? t.kind = some (op, strength)) :
    r.shift (.whole table) t = some ⟨brackets, ⟨e, op, strength⟩ :: links, .operand⟩ := by
  have ne : t.kind ≠ .char '(' := by
    intro opening
    rw [opening, delimits.opening] at operator
    cases operator
  rw [ends.shift ne, shiftAfter, Reading.operatorHere_whole, operator]

theorem Ends.shift_closing_group {outer : List Link}
    (ends : r.Ends (.group outer :: brackets) links e) (delimits : table.Delimits)
    (closes : t.kind = .char ')') :
    r.shift (.whole table) t =
      some ⟨brackets, outer, .read (Link.tree links.reverse e)⟩ := by
  have ne : t.kind ≠ .char '(' := by rw [closes]; decide
  rw [ends.shift ne, shiftAfter, Reading.operatorHere_whole, closes, delimits.closing]
  simp

theorem Ends.shift_closing_call {outer : List Link} {name : Token} {args : List Expr}
    (ends : r.Ends (.call outer name args :: brackets) links e) (delimits : table.Delimits)
    (closes : t.kind = .char ')') :
    r.shift (.whole table) t = some ⟨brackets, outer,
      .read (callExpr name (args ++ [Link.tree links.reverse e]) t)⟩ := by
  have ne : t.kind ≠ .char '(' := by rw [closes]; decide
  rw [ends.shift ne, shiftAfter, Reading.operatorHere_whole, closes, delimits.closing]
  simp

theorem Ends.shift_comma {outer : List Link} {name : Token} {args : List Expr}
    (ends : r.Ends (.call outer name args :: brackets) links e) (delimits : table.Delimits)
    (separates : t.kind = .char ',') :
    r.shift (.whole table) t =
      some ⟨.call outer name (args ++ [Link.tree links.reverse e]) :: brackets, [],
        .operand⟩ := by
  have ne : t.kind ≠ .char '(' := by rw [separates]; decide
  rw [ends.shift ne, shiftAfter, Reading.operatorHere_whole, separates, delimits.comma]
  simp

mutual
theorem shiftAll_operand (delimits : table.Delimits) :
    ∀ {ts : List Token} {e : Expr}, Operand table ts e →
      ∀ {r : Reader} {brackets : List Bracket} {links : List Link},
      r.Begins (.whole table) brackets links →
      ∃ r' e', r.shiftAll (.whole table) ts = some r' ∧ r'.Ends brackets links e'
  | _, _, .number t kind, r, brackets, links, begins =>
    ⟨_, _, shiftAll_cons (begins.shift_number kind), .read _ _ _⟩
  | _, _, .var t kind, r, brackets, links, begins =>
    ⟨_, _, shiftAll_cons (begins.shift_name kind), .name _ _ _⟩
  | _, _, .group opens inside closes, r, brackets, links, begins => by
    have shifted := begins.shift_opening opens
    obtain ⟨r₁, links₁, e₁, all, ends⟩ :=
      shiftAll_expression delimits inside (begins_operand _ (.group links :: brackets) [])
    have closed := (shiftAll_snoc all).trans (ends.shift_closing_group delimits closes)
    exact ⟨_, _, (shiftAll_cons shifted).trans closed, .read _ _ _⟩
  | _, _, @Operand.call _ name _ _ _ _ named opens inside closes, r, brackets, links,
      begins => by
    obtain ⟨r₁, args, links₁, e₁, all, ends⟩ :=
      shiftAll_arguments delimits inside (begins_arguments _ brackets links name)
    have closed := (shiftAll_snoc all).trans (ends.shift_closing_call delimits closes)
    exact ⟨_, _, (begins.shiftAll_call named opens _).trans closed, .read _ _ _⟩
  | _, _, .callEmpty named opens closes, r, brackets, links, begins =>
    ⟨_, _, begins.shiftAll_callEmpty named opens closes, .read _ _ _⟩

/-- The reader takes every expression and comes back to the brackets it began with. -/
theorem shiftAll_expression (delimits : table.Delimits) :
    ∀ {ts : List Token} {e : Expr}, Expression table ts e →
      ∀ {r : Reader} {brackets : List Bracket} {links : List Link},
      r.Begins (.whole table) brackets links →
      ∃ r' links' e', r.shiftAll (.whole table) ts = some r' ∧ r'.Ends brackets links' e'
  | _, _, .operand alone, r, brackets, links, begins => by
    obtain ⟨r₁, e₁, all, ends⟩ := shiftAll_operand delimits alone begins
    exact ⟨r₁, links, e₁, all, ends⟩
  | _, _, .binary ofLeft operator ofRight, r, brackets, links, begins => by
    obtain ⟨r₁, links₁, e₁, left, ends⟩ := shiftAll_expression delimits ofLeft begins
    obtain ⟨r₂, links₂, e₂, right, ends'⟩ :=
      shiftAll_expression delimits ofRight (begins_operand _ _ _)
    refine ⟨r₂, links₂, e₂, ?_, ends'⟩
    rw [shiftAll_append_of left, shiftAll_cons (ends.shift_operator delimits operator)]
    exact right

theorem shiftAll_arguments (delimits : table.Delimits) :
    ∀ {ts : List Token} {es : List Expr}, Arguments table ts es →
      ∀ {r : Reader} {brackets : List Bracket} {outer : List Link} {name : Token}
        {args : List Expr}, r.Begins (.whole table) (.call outer name args :: brackets) [] →
      ∃ r' args' links' e', r.shiftAll (.whole table) ts = some r' ∧
        r'.Ends (.call outer name args' :: brackets) links' e'
  | _, _, .one only, r, brackets, outer, name, args, begins => by
    obtain ⟨r₁, links₁, e₁, all, ends⟩ := shiftAll_expression delimits only begins
    exact ⟨r₁, args, links₁, e₁, all, ends⟩
  | _, _, .more first separates others, r, brackets, outer, name, args, begins => by
    obtain ⟨r₁, links₁, e₁, all, ends⟩ := shiftAll_expression delimits first begins
    obtain ⟨r₂, args₂, links₂, e₂, rest, ends'⟩ :=
      shiftAll_arguments delimits others (begins_operand _ _ _)
    refine ⟨r₂, args₂, links₂, e₂, ?_, ends'⟩
    rw [shiftAll_append_of all, shiftAll_cons (ends.shift_comma delimits separates)]
    exact rest
end

/-- The reader takes every expression and is satisfied with it. -/
theorem settle_of_expression {ts : List Token} (delimits : table.Delimits)
    (derives : Expression table ts e) :
    ∃ r e', Reader.start.shiftAll (.whole table) ts = some r ∧ r.settle = .ok e' := by
  obtain ⟨r, links, e', all, ends⟩ :=
    shiftAll_expression delimits derives (begins_operand _ [] [])
  exact ⟨r, _, all, by rw [ends.settle]; rfl⟩

/-- The reader takes every word that can be continued to an expression. -/
theorem shiftAll_of_viable {ts : List Token} (delimits : table.Delimits)
    (viable : Viable (Expression table) ts) :
    (Reader.start.shiftAll (.whole table) ts).isSome := by
  obtain ⟨us, e, derives⟩ := viable
  obtain ⟨r, e', all, -⟩ := settle_of_expression delimits derives
  rw [shiftAll_append] at all
  obtain ⟨r₁, first, -⟩ := Option.bind_eq_some_iff.1 all
  rw [first]
  rfl

end Reader

end Reckon
