/-
  A place in a list of tokens.

  A cursor holds the tokens that lie ahead and, apart from them, the end-of-input token
  that closes the list.  It moves over the tokens ahead and then stays: the closing
  token is never passed.  End-of-input tokens may also stand among those ahead; they end
  a construct like any other token that the grammar refuses.
-/
import Reckon.Token.Scan
import Reckon.Diagnostic.Basic

namespace Reckon

structure Cursor where
  ahead : List Token
  final : Token
  final_kind : final.kind = .eof

namespace Cursor

def current (c : Cursor) : Token := c.ahead.headD c.final

def kind (c : Cursor) : TokenKind := c.current.kind

def position (c : Cursor) : Position := c.current.span.start

/-- Whether the token at hand is an end of input, the closing one or another. -/
def atEnd (c : Cursor) : Bool := c.kind == .eof

/-- The cursor past the token at hand, or the same one on the closing token. -/
def advance (c : Cursor) : Cursor := { c with ahead := c.ahead.tail }

/-- The cursor on the first token of a list.  A list that does not end in an end of
    input gets one, in the given file, where its last token ends. -/
def ofTokens (file : String) (tokens : List Token) : Cursor :=
  match tokens.getLast? with
  | none => ⟨[], .endAt file 0, rfl⟩
  | some last =>
    if h : last.kind = .eof then ⟨tokens.dropLast, last, h⟩
    else ⟨tokens, .endAt file last.span.stop.offset, rfl⟩

def ofSource (source file : String) : Cursor := ofTokens file (tokenize source file)

def complaint (c : Cursor) (what : Expectation) : Diagnostic :=
  ⟨.missing what c.current.text, c.position⟩

end Cursor

/-- Reading from a cursor; where it fails the cursor stands on the token that is
    complained about. -/
abbrev Parse (α : Type) := ExceptT Diagnostic (StateM Cursor) α

namespace Parse

def outcome {α : Type} (p : Parse α) (c : Cursor) : Except Diagnostic α × Cursor :=
  p.run.run c

/-- Take the token at hand, whatever it is. -/
def next : Parse Token := do
  let c ← get
  set c.advance
  return c.current

def expect (kind : TokenKind) (what : Expectation) : Parse Token := do
  let c ← get
  if c.kind = kind then next else throw (c.complaint what)

end Parse

end Reckon
