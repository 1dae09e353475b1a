/-
  Where reading stops.

  `StopsExactly` says of a language that reading takes the longest word ahead that can be
  continued to one of the language, accepts it if and only if it is one, and complains of
  the token after it otherwise.  It is put together of `Takes`, which says of the word taken
  only that the next token does not continue it, and which is kept by reading one thing
  after the other (`Takes.bind`).

  The main statement is `stops_exactly`: expressions, definitions and external declarations
  are read so, from every cursor and with every table of operators in which brackets and
  commas are none.
-/
import Reckon.Proofs.Grammar.Acceptance
import Reckon.Grammar.Progress

namespace Reckon

variable {α β : Type}

/-- Reading from `c` came to `done`: the tokens ahead were `taken` and those that are left,
    the token at hand does not continue `taken`, and `taken` was accepted if and only if it
    is a word of the language. -/
structure Takes (L : List Token → α → Prop) (c : Cursor) (taken : List Token)
    (done : Except Diagnostic α × Cursor) : Prop where
  ahead : c.ahead = taken ++ done.2.ahead
  final : done.2.final = c.final
  viable : Viable L taken
  stuck : ¬ Viable L (taken ++ [done.2.current])
  accepts : ∀ a, L taken a → ∃ a', done.1 = .ok a'
  derives : ∀ a, done.1 = .ok a → L taken a
  complains : ∀ d, done.1 = .error d → ∃ what, d = done.2.complaint what

/-- Reading from `c` came to `done`: it stopped after the longest word ahead that can be
    continued to one of the language, with a derivation of that word if it is one, and
    otherwise with a complaint of the token at which it stopped. -/
structure StopsExactly (L : List Token → α → Prop) (c : Cursor) (taken : List Token)
    (done : Except Diagnostic α × Cursor) : Prop where
  ahead : c.ahead = taken ++ done.2.ahead
  final : done.2.final = c.final
  viable : Viable L taken
  longest : ∀ ts, ts <+: c.ahead ++ [c.final] → Viable L ts → ts <+: taken
  accepts : (∃ a, done.1 = .ok a) ↔ ∃ a, L taken a
  derives : ∀ a, done.1 = .ok a → L taken a
  complains : ∀ d, done.1 = .error d →
    ∃ what, d = ⟨.missing what done.2.current.text, done.2.current.span.start⟩

theorem Cursor.current_begins (c : Cursor) : [c.current] <+: c.ahead ++ [c.final] := by
  unfold Cursor.current
  cases c.ahead with
  | nil => exact List.prefix_refl _
  | cons t rest => exact ⟨rest ++ [c.final], rfl⟩

theorem Takes.stopsExactly {L : List Token → α → Prop} {c : Cursor} {taken : List Token}
    {done : Except Diagnostic α × Cursor} (takes : Takes L c taken done) :
    StopsExactly L c taken done where
  ahead := takes.ahead
  final := takes.final
  viable := takes.viable
  longest := by
    intro ts le viable
    have next : taken ++ [done.2.current] <+: c.ahead ++ [c.final] := by
      rw [takes.ahead, List.append_assoc, ← takes.final]
      exact (List.prefix_append_right_inj taken).2 done.2.current_begins
    rcases List.prefix_or_prefix_of_prefix le next with within | beyond
    · rcases List.prefix_concat_iff.1 within with rfl | within
      · exact absurd viable takes.stuck
      · exact within
    · exact absurd (viable.of_prefix beyond) takes.stuck
  accepts := ⟨fun ⟨a, ok⟩ => ⟨a, takes.derives a ok⟩, fun ⟨a, word⟩ => takes.accepts a word⟩
  derives := takes.derives
  complains := takes.complains

namespace Parse

/-! ### One thing after the other -/

def Then (L : List Token → α → Prop) (M : α → List Token → β → Prop) (ts : List Token)
    (b : β) : Prop :=
  ∃ us vs a, ts = us ++ vs ∧ L us a ∧ M a vs b

def Definite (L : List Token → α → Prop) : Prop :=
  ∀ us vs a b, L us a → L vs b → us <+: vs → us = vs ∧ a = b

theorem Definite.eq_of_append {L : List Token → α → Prop} (definite : Definite L)
    {us vs xs ys : List Token} {a b : α} (left : L us a) (right : L vs b)
    (eq : us ++ xs = vs ++ ys) : us = vs ∧ a = b := by
  have le : us <+: vs ++ ys := ⟨xs, eq⟩
  rcases List.prefix_or_prefix_of_prefix le (List.prefix_append vs ys) with le | le
  · exact definite us vs a b left right le
  · obtain ⟨eq, eq'⟩ := definite vs us b a right left le
    exact ⟨eq.symm, eq'.symm⟩

variable {L : List Token → α → Prop} {M : α → List Token → β → Prop} {c c' : Cursor}
variable {p : Parse α} {f : α → Parse β} {taken more : List Token} {a : α} {d : Diagnostic}
variable {done : Except Diagnostic β × Cursor}

/-- Where the first thing is refused, the whole is refused at the same token. -/
theorem takes_then_of_refused (definite : Definite L) (inhabited : ∀ a, ∃ ts b, M a ts b)
    (first : Takes L c taken (.error d, c')) : Takes (Then L M) c taken (.error d, c') := by
  obtain ⟨rest, a', whole⟩ := first.viable
  -- What was taken holds no word of the first language: it would be all that was taken.
  have no_word : ∀ us a, L us a → ¬ us <+: taken := by
    intro us a word le
    obtain ⟨eq, -⟩ := definite us (taken ++ rest) a a' word whole
      (le.trans (List.prefix_append taken rest))
    obtain ⟨vs, rfl⟩ := le
    rw [List.append_assoc, List.self_eq_append_right, List.append_eq_nil_iff] at eq
    rw [eq.1, List.append_nil] at first
    obtain ⟨_, ok⟩ := first.accepts a word
    cases ok
  refine ⟨first.ahead, first.final, ?_, ?_, ?_, (by intro _ ok; cases ok), ?_⟩
  · obtain ⟨vs, b, word⟩ := inhabited a'
    exact ⟨rest ++ vs, b, taken ++ rest, vs, a', (List.append_assoc _ _ _).symm, whole, word⟩
  · rintro ⟨xs, b, us, vs, a, eq, word, -⟩
    have le : us <+: taken ++ [c'.current] ++ xs := ⟨vs, eq.symm⟩
    rcases List.prefix_or_prefix_of_prefix le (List.prefix_append _ xs) with within | beyond
    · rcases List.prefix_concat_iff.1 within with rfl | within
      · exact first.stuck ⟨[], a, by rwa [List.append_nil]⟩
      · exact no_word us a word within
    · have viable : Viable L us := ⟨[], a, by rwa [List.append_nil]⟩
      exact first.stuck (viable.of_prefix beyond)
  · rintro b ⟨us, vs, a, eq, word, -⟩
    exact absurd ⟨vs, eq.symm⟩ (no_word us a word)
  · intro d error
    cases error
    exact first.complains d rfl

/-- Where the first thing was read, the second goes on with the tokens that are left. -/
theorem takes_then_of_read (definite : Definite L) (first : Takes L c taken (.ok a, c'))
    (next : Takes (M a) c' more done) : Takes (Then L M) c (taken ++ more) done := by
  have word := first.derives a rfl
  refine ⟨?_, next.final.trans first.final, ?_, ?_, ?_, ?_, next.complains⟩
  · rw [first.ahead, next.ahead, List.append_assoc]
  · obtain ⟨xs, b, second⟩ := next.viable
    exact ⟨xs, b, taken, more ++ xs, a, List.append_assoc _ _ _, word, second⟩
  · rintro ⟨xs, b, us, vs, a', eq, word', second⟩
    rw [List.append_assoc, List.append_assoc] at eq
    obtain ⟨rfl, rfl⟩ := definite.eq_of_append word word' eq
    rw [List.append_cancel_left eq.symm, ← List.append_assoc] at second
    exact next.stuck ⟨xs, b, second⟩
  · rintro b ⟨us, vs, a', eq, word', second⟩
    obtain ⟨rfl, rfl⟩ := definite.eq_of_append word word' eq
    rw [List.append_cancel_left eq.symm] at second
    exact next.accepts b second
  · intro b ok
    exact ⟨taken, more, a, rfl, word, next.derives b ok⟩

/-- Reading one thing after the other takes a word of the first language and what can be
    taken of the second. -/
theorem takes_bind (definite : Definite L) (inhabited : ∀ a, ∃ ts b, M a ts b)
    (first : ∃ taken, Takes L c taken (p.outcome c))
    (second : ∀ a c', p.outcome c = (.ok a, c') →
      ∃ more, Takes (M a) c' more ((f a).outcome c')) :
    ∃ taken, Takes (Then L M) c taken ((p >>= f).outcome c) := by
  obtain ⟨taken, first⟩ := first
  rw [outcome_bind]
  rcases came : p.outcome c with ⟨d | a, c'⟩ <;> rw [came] at first
  · exact ⟨taken, takes_then_of_refused definite inhabited first⟩
  · obtain ⟨more, next⟩ := second a c' came
    exact ⟨taken ++ more, takes_then_of_read definite first next⟩

theorem takes_map (form : α → β) (takes : Takes L c taken (p.outcome c)) :
    Takes (fun ts b => ∃ a, L ts a ∧ b = form a) c taken
      ((p >>= fun a => pure (form a)).outcome c) := by
  have viable : ∀ ts, Viable (fun ts b => ∃ a, L ts a ∧ b = form a) ts ↔ Viable L ts :=
    fun ts => ⟨fun ⟨us, _, a, word, _⟩ => ⟨us, a, word⟩,
      fun ⟨us, a, word⟩ => ⟨us, form a, a, word, rfl⟩⟩
  rw [outcome_bind]
  rcases came : p.outcome c with ⟨d | a, c'⟩ <;> rw [came] at takes
  · refine ⟨takes.ahead, takes.final, (viable _).2 takes.viable,
      fun more => takes.stuck ((viable _).1 more), ?_, (by intro _ ok; cases ok), ?_⟩
    · rintro _ ⟨a, word, -⟩
      obtain ⟨_, ok⟩ := takes.accepts a word
      cases ok
    · intro d error
      cases error
      exact takes.complains d rfl
  · refine ⟨takes.ahead, takes.final, (viable _).2 takes.viable,
      fun more => takes.stuck ((viable _).1 more), fun _ _ => ⟨_, rfl⟩, ?_,
      (by intro _ error; cases error)⟩
    intro b ok
    cases ok
    exact ⟨a, takes.derives a rfl, rfl⟩

theorem definite_then (first : Definite L) (second : ∀ a, Definite (M a)) :
    Definite (Then L M) := by
  rintro _ _ b b' ⟨us, vs, a, rfl, word, word'⟩ ⟨us', vs', a', rfl, other, other'⟩ ⟨xs, eq⟩
  rw [List.append_assoc] at eq
  obtain ⟨rfl, rfl⟩ := first.eq_of_append word other eq
  obtain ⟨rfl, rfl⟩ := second a vs vs' b b' word' other' ⟨xs, List.append_cancel_left eq⟩
  exact ⟨rfl, rfl⟩

theorem definite_map (form : α → β) (definite : Definite L) :
    Definite fun ts b => ∃ a, L ts a ∧ b = form a := by
  rintro us vs _ _ ⟨a, word, rfl⟩ ⟨a', word', rfl⟩ le
  obtain ⟨rfl, rfl⟩ := definite us vs a a' word word' le
  exact ⟨rfl, rfl⟩

/-! ### Single tokens -/

def One (kind : TokenKind) (ts : List Token) (t : Token) : Prop := ts = [t] ∧ t.kind = kind

theorem definite_one (kind : TokenKind) : Definite (One kind) := by
  rintro us vs t u ⟨rfl, -⟩ ⟨rfl, -⟩ le
  obtain ⟨rfl, -⟩ := List.cons_prefix_cons.1 le
  exact ⟨rfl, rfl⟩

theorem takes_expect (kind : TokenKind) (what : Expectation) (ne : kind ≠ .eof) (c : Cursor) :
    ∃ taken, Takes (One kind) c taken ((expect kind what).outcome c) := by
  rw [outcome_expect]
  by_cases here : c.kind = kind
  · rw [if_pos here]
    have going : c.kind ≠ .eof := by rw [here]; exact ne
    have ahead : c.ahead = [c.current] ++ c.advance.ahead := by
      cases eq : c.ahead with
      | nil => exact absurd (by simp [Cursor.kind, Cursor.current, eq, c.final_kind]) going
      | cons t rest => simp [Cursor.current, Cursor.advance, eq]
    refine ⟨[c.current], ahead, rfl, ⟨[], c.current, rfl, here⟩, ?_, fun _ _ => ⟨_, rfl⟩, ?_,
      (by intro _ error; cases error)⟩
    · rintro ⟨us, t, eq, -⟩
      simp at eq
    · intro t ok
      cases ok
      exact ⟨rfl, here⟩
  · rw [if_neg here]
    refine ⟨[], rfl, rfl, ⟨[{ (default : Token) with kind }], _, rfl, rfl⟩, ?_, ?_,
      (by intro _ ok; cases ok), ?_⟩
    · rintro ⟨us, t, eq, same⟩
      obtain ⟨rfl, -⟩ := List.cons_eq_cons.1 eq
      exact here same
    · rintro t ⟨absurd, -⟩
      cases absurd
    · intro d error
      cases error
      exact ⟨what, rfl⟩

theorem takes_next {kind : TokenKind} (ne : kind ≠ .eof) (here : c.kind = kind) :
    ∃ taken, Takes (One kind) c taken (next.outcome c) := by
  obtain ⟨taken, takes⟩ := takes_expect kind .operand ne c
  rw [outcome_expect, if_pos here] at takes
  exact ⟨taken, takes⟩

/-! ### Expressions -/

/-- An expression is read as far as the reader shifts. -/
theorem takes_expression {table : OperatorTable} (delimits : table.Delimits) (c : Cursor) :
    ∃ taken, Takes (Expression table) c taken ((expression table).outcome c) := by
  obtain ⟨taken, ahead, all, stops⟩ := Reader.run_stops (.whole table) Reader.start c.ahead
  rw [expression, outcome_read]
  simp only
  generalize Reader.start.run (.whole table) c.ahead = ran at ahead all stops ⊢
  obtain ⟨last, left⟩ := ran
  simp only at ahead all stops ⊢
  let after : Cursor := { c with ahead := left }
  have reads : Reads table last taken := (reads_start table).shiftAll all
  refine ⟨taken, ahead, rfl, reads.viable, ?_, ?_, ?_, ?_⟩
  · intro viable
    have isSome := Reader.shiftAll_of_viable delimits viable
    rw [Reader.shiftAll_snoc all] at isSome
    have stuck : last.shift (.whole table) after.current = none := by
      cases eq : left with
      | nil =>
        have final : after.current = c.final := by simp [after, Cursor.current, eq]
        rw [final]
        exact Reader.shift_eof _ _ c.final_kind
      | cons t rest =>
        have hand : after.current = t := by simp [after, Cursor.current, eq]
        rw [hand]
        exact stops t rest eq
    rw [stuck] at isSome
    cases isSome
  · intro e derives
    obtain ⟨r, e', all', settled⟩ := Reader.settle_of_expression delimits derives
    rw [all] at all'
    cases all'
    exact ⟨e', by rw [settled]; rfl⟩
  · intro e ok
    cases settled : last.settle with
    | error what =>
      rw [settled] at ok
      cases ok
    | ok e' =>
      rw [settled] at ok
      cases ok
      exact reads.derives settled
  · intro d error
    cases settled : last.settle with
    | error what =>
      rw [settled] at error
      cases error
      exact ⟨what, rfl⟩
    | ok e =>
      rw [settled] at error
      cases error

theorem exists_expression (table : OperatorTable) : ∃ ts e, Expression table ts e :=
  ⟨_, _, .operand (.number { (default : Token) with kind := .number } rfl)⟩

/-! ### Prototypes -/

theorem takeNames_spec (tokens : List Token) :
    ∃ params, tokens = params ++ (takeNames tokens).2 ∧
      (takeNames tokens).1 = params.map (·.text) ∧
      (∀ t ∈ params, t.kind = .identifier) ∧
      ∀ t rest, (takeNames tokens).2 = t :: rest → t.kind ≠ .identifier := by
  induction tokens with
  | nil => exact ⟨[], rfl, rfl, by simp, by intro _ _ left; cases left⟩
  | cons t rest ih =>
    unfold takeNames
    by_cases identifier : t.kind = .identifier
    · simp only [identifier, if_true]
      obtain ⟨params, eq, names, identifiers, stops⟩ := ih
      refine ⟨t :: params, congrArg (t :: ·) eq, by rw [names]; rfl, ?_, stops⟩
      intro u member
      rcases List.mem_cons.1 member with rfl | later
      · exact identifier
      · exact identifiers u later
    · simp only [identifier, if_false]
      refine ⟨[], rfl, rfl, by simp, fun u us left => ?_⟩
      cases left
      exact identifier

def Params (ts : List Token) (read : List String × Token) : Prop :=
  ∃ params, ts = params ++ [read.2] ∧ (∀ t ∈ params, t.kind = .identifier) ∧
    read.2.kind = .char ')' ∧ read.1 = params.map (·.text)

def params : Parse (List String × Token) := do
  let params ← names
  let close ← expect (.char ')') .prototypeCloseParen
  return (params, close)

theorem takes_params (c : Cursor) : ∃ taken, Takes Params c taken (params.outcome c) := by
  obtain ⟨ps, ahead, texts, identifiers, stops⟩ := takeNames_spec c.ahead
  rw [params, outcome_bind, outcome_names]
  simp only
  generalize takeNames c.ahead = took at ahead texts stops ⊢
  obtain ⟨names, left⟩ := took
  simp only at ahead texts stops ⊢
  rw [outcome_bind, outcome_expect]
  generalize hand : ({ c with ahead := left } : Cursor) = after
  have left_eq : after.ahead = left := by rw [← hand]
  have final : after.final = c.final := by rw [← hand]
  have not_identifier : after.current.kind ≠ .identifier := by
    unfold Cursor.current
    rw [left_eq, final]
    cases eq : left with
    | nil => simp [c.final_kind]
    | cons t rest => exact stops t rest eq
  by_cases closes : after.kind = .char ')'
  · simp only [closes, if_true, outcome_pure]
    have advanced : left = [after.current] ++ after.advance.ahead := by
      rw [← left_eq]
      cases eq : after.ahead with
      | nil => simp [Cursor.kind, Cursor.current, eq, after.final_kind] at closes
      | cons t rest => simp [Cursor.current, Cursor.advance, eq]
    have word : Params (ps ++ [after.current]) (names, after.current) :=
      ⟨ps, rfl, identifiers, closes, texts⟩
    refine ⟨ps ++ [after.current], ?_, final, ⟨[], _, by rwa [List.append_nil]⟩, ?_,
      fun _ _ => ⟨_, rfl⟩, ?_, (by intro _ error; cases error)⟩
    · rw [List.append_assoc, ← advanced]
      exact ahead
    · -- The closing bracket would be one of the parameters.
      rintro ⟨us, ⟨_, close⟩, qs, eq, identifiers', -, -⟩
      have among : after.current ∈ qs := by
        have dropped := congrArg List.dropLast eq
        simp only [List.dropLast_concat] at dropped
        rw [← dropped]
        simp
      exact not_identifier (identifiers' _ among)
    · intro read ok
      cases ok
      exact word
  · simp only [closes, if_false]
    let close : Token := { (default : Token) with kind := .char ')' }
    refine ⟨ps, by rw [left_eq]; exact ahead, final,
      ⟨[close], (ps.map (·.text), close), ps, rfl, identifiers, rfl, rfl⟩, ?_, ?_,
      (by intro _ ok; cases ok), ?_⟩
    · rintro ⟨us, ⟨_, close⟩, qs, eq, identifiers', closes', -⟩
      have member : after.current ∈ qs ++ [close] := by
        rw [← eq]
        simp
      rcases List.mem_append.1 member with among | last
      · exact not_identifier (identifiers' _ among)
      · apply closes
        rw [Cursor.kind, List.mem_singleton.1 last]
        exact closes'
    · -- The last token of such a word closes, but all that was taken are identifiers.
      rintro ⟨_, close⟩ ⟨qs, eq, -, closes', -⟩
      have identifier := identifiers close (by rw [eq]; simp)
      rw [closes'] at identifier
      cases identifier
    · intro d error
      cases error
      exact ⟨_, rfl⟩

theorem definite_params : Definite Params := by
  rintro _ _ ⟨_, close⟩ ⟨_, close'⟩ ⟨ps, rfl, -, closes, rfl⟩ ⟨qs, rfl, identifiers, -, rfl⟩ le
  rcases List.prefix_concat_iff.1 le with eq | within
  · obtain ⟨rfl, last⟩ := List.append_inj' eq rfl
    cases last
    exact ⟨rfl, rfl⟩
  · -- The closing bracket would be one of the parameters.
    have identifier := identifiers close (within.subset (by simp))
    rw [closes] at identifier
    cases identifier

def prototypeOf (name : Token) (read : List String × Token) : Prototype :=
  ⟨name.text, read.1, ⟨name.span.start, read.2.span.stop⟩⟩

theorem prototype_eq : prototype = do
    let name ← expect .identifier .functionName
    let _ ← expect (.char '(') .prototypeOpenParen
    let read ← params
    return prototypeOf name read := by
  simp only [prototype, params, bind_assoc, pure_bind]
  rfl

/-- The words of prototypes, one part after the other. -/
theorem prototypeWord_eq : PrototypeWord = Then (One .identifier) fun name =>
    Then (One (.char '(')) fun _ ts p => ∃ read, Params ts read ∧ p = prototypeOf name read := by
  funext ts p
  apply propext
  constructor
  · rintro ⟨named, opens, identifiers, closes⟩
    exact ⟨[_], _, _, rfl, ⟨rfl, named⟩, [_], _, _, rfl, ⟨rfl, opens⟩, (_, _),
      ⟨_, rfl, identifiers, closes, rfl⟩, rfl⟩
  · rintro ⟨_, _, name, rfl, ⟨rfl, named⟩, _, _, opening, rfl, ⟨rfl, opens⟩, ⟨_, close⟩,
      ⟨ps, rfl, identifiers, closes, rfl⟩, rfl⟩
    exact .intro named opens identifiers closes

theorem definite_prototypeWord : Definite PrototypeWord := by
  rw [prototypeWord_eq]
  exact definite_then (definite_one _) fun name =>
    definite_then (definite_one _) fun _ => definite_map _ definite_params

theorem takes_prototype (c : Cursor) :
    ∃ taken, Takes PrototypeWord c taken (prototype.outcome c) := by
  let opening : Token := { (default : Token) with kind := .char '(' }
  let closing : Token := { (default : Token) with kind := .char ')' }
  have close : Params [closing] ([], closing) := ⟨[], rfl, by simp, rfl, rfl⟩
  rw [prototypeWord_eq, prototype_eq]
  refine takes_bind (definite_one _) ?_ (takes_expect _ _ (by decide) c) fun name c₁ _ => ?_
  · intro name
    exact ⟨[opening, closing], _, [opening], [closing], opening, rfl, ⟨rfl, rfl⟩, _, close, rfl⟩
  refine takes_bind (definite_one _) ?_ (takes_expect _ _ (by decide) c₁) fun _ c₂ _ => ?_
  · intro _
    exact ⟨[closing], _, _, close, rfl⟩
  obtain ⟨taken, takes⟩ := takes_params c₂
  exact ⟨taken, takes_map (prototypeOf name) takes⟩

/-! ### Constructs -/

theorem exists_prototypeWord : ∃ ts p, PrototypeWord ts p := by
  let name : Token := { (default : Token) with kind := .identifier }
  let opening : Token := { (default : Token) with kind := .char '(' }
  let closing : Token := { (default : Token) with kind := .char ')' }
  have named : name.kind = .identifier := rfl
  have opens : opening.kind = .char '(' := rfl
  have closes : closing.kind = .char ')' := rfl
  have identifiers : ∀ t ∈ ([] : List Token), t.kind = .identifier := by simp
  exact ⟨_, _, .intro named opens identifiers closes⟩

theorem externalWord_eq : ExternalWord = Then (One .externKeyword) fun _ => PrototypeWord := by
  funext ts p
  apply propext
  constructor
  · rintro ⟨declares, prototype⟩
    exact ⟨[_], _, _, rfl, ⟨rfl, declares⟩, prototype⟩
  · rintro ⟨_, us, keyword, rfl, ⟨rfl, declares⟩, prototype⟩
    exact .intro declares prototype

theorem takes_external (here : c.kind = .externKeyword) :
    ∃ taken, Takes ExternalWord c taken (external.outcome c) := by
  rw [externalWord_eq]
  exact takes_bind (definite_one _) (fun _ => exists_prototypeWord)
    (takes_next (by decide) here) fun _ c₁ _ => takes_prototype c₁

theorem definitionWord_eq (table : OperatorTable) : DefinitionWord table =
    Then (One .defKeyword) fun _ => Then PrototypeWord fun p ts d =>
      ∃ e, Expression table ts e ∧ d = ⟨p, e⟩ := by
  funext ts d
  apply propext
  constructor
  · rintro ⟨defines, prototype, body⟩
    exact ⟨[_], _, _, rfl, ⟨rfl, defines⟩, _, _, _, rfl, prototype, _, body, rfl⟩
  · rintro ⟨_, _, keyword, rfl, ⟨rfl, defines⟩, us, vs, p, rfl, prototype, e, body, rfl⟩
    have word : DefinitionWord table (keyword :: (us ++ vs)) ⟨p, e⟩ :=
      .intro defines prototype body
    exact word

theorem takes_definition {table : OperatorTable} (delimits : table.Delimits)
    (here : c.kind = .defKeyword) :
    ∃ taken, Takes (DefinitionWord table) c taken ((definition table).outcome c) := by
  obtain ⟨us, e, body⟩ := exists_expression table
  obtain ⟨ts, p, word⟩ := exists_prototypeWord
  rw [definitionWord_eq]
  refine takes_bind (definite_one _) ?_ (takes_next (by decide) here) fun _ c₁ _ => ?_
  · intro _
    exact ⟨ts ++ us, _, ts, us, p, rfl, word, e, body, rfl⟩
  refine takes_bind definite_prototypeWord ?_ (takes_prototype c₁) fun p c₂ _ => ?_
  · intro p
    exact ⟨us, _, e, body, rfl⟩
  obtain ⟨taken, takes⟩ := takes_expression delimits c₂
  exact ⟨taken, takes_map (Definition.mk p) takes⟩

/-- In every table in which brackets and commas are no operators, and from every cursor:
    an expression is read up to the end of the longest word ahead that can be continued to
    an expression.  If that word is an expression, what is read is one of its derivations,
    and otherwise the reading is refused with a complaint of the first token after it.  The
    same holds of definitions from a `def` on and of external declarations from an `extern`
    on, with their own languages. -/
theorem stops_exactly {table : OperatorTable} (delimits : table.Delimits) (c : Cursor) :
    (∃ taken, StopsExactly (Expression table) c taken ((expression table).outcome c)) ∧
    (c.kind = .defKeyword →
      ∃ taken, StopsExactly (DefinitionWord table) c taken ((definition table).outcome c)) ∧
    (c.kind = .externKeyword →
      ∃ taken, StopsExactly ExternalWord c taken (external.outcome c)) := by
  refine ⟨?_, fun here => ?_, fun here => ?_⟩
  · obtain ⟨taken, takes⟩ := takes_expression delimits c
    exact ⟨taken, takes.stopsExactly⟩
  · obtain ⟨taken, takes⟩ := takes_definition delimits here
    exact ⟨taken, takes.stopsExactly⟩
  · obtain ⟨taken, takes⟩ := takes_external here
    exact ⟨taken, takes.stopsExactly⟩

/-- A definition whose body is cut short, with the standard operators. -/
theorem stops_exactly_in_body :
    let c := Cursor.ofSource "def f(x y) g(x, y" ""
    ∃ taken, StopsExactly (DefinitionWord .standard) c taken
      ((definition .standard).outcome c) := by
  intro c
  have delimits : OperatorTable.standard.Delimits := ⟨rfl, rfl, rfl⟩
  have here : c.kind = .defKeyword := by
    unfold c
    decide +kernel
  exact (stops_exactly delimits c).2.1 here

end Parse

end Reckon
