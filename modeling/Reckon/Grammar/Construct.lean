/-
  Top-level constructs.

      prototype  := identifier '(' identifier* ')'
      definition := 'def' prototype expression
      external   := 'extern' prototype

  The keyword of a construct is taken without a look at it: whoever reads a construct
  has seen it.
-/
import Reckon.Grammar.Reader

namespace Reckon

def takeNames : List Token → List String × List Token
  | [] => ([], [])
  | t :: rest =>
    if t.kind = .identifier then
      let (names, left) := takeNames rest
      (t.text :: names, left)
    else ([], t :: rest)

namespace Parse

def names : Parse (List String) := do
  let c ← get
  let (names, left) := takeNames c.ahead
  set { c with ahead := left }
  return names

def prototype : Parse Prototype := do
  let name ← expect .identifier .functionName
  let _ ← expect (.char '(') .prototypeOpenParen
  let params ← names
  let close ← expect (.char ')') .prototypeCloseParen
  return ⟨name.text, params, ⟨name.span.start, close.span.stop⟩⟩

def definition (table : OperatorTable) : Parse Definition := do
  let _ ← next
  let proto ← prototype
  let body ← expression table
  return ⟨proto, body⟩

def external : Parse Prototype := do
  let _ ← next
  prototype

def topLevel (table : OperatorTable) : Parse Definition := do
  let body ← expression table
  return .anonymous body

end Parse

end Reckon
