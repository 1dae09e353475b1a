/-
  Reports.

  Each outcome but a skipped semicolon has a report: a line that says what was read, the
  generated code if it is wanted, and for an expression what it wrote and its value.  A
  failure is reported with an excerpt of the source where the source is known, and in one
  line otherwise.
-/
import Reckon.Decimal.Layout
import Reckon.Diagnostic.Excerpt
import Reckon.Session.Basic

namespace Reckon

def valueText (x : Float) : String := Decimal.fixed 6 x

def withoutFinalNewlines (text : String) : String :=
  String.ofList (text.toList.reverse.dropWhile (· == '\n')).reverse

namespace Session

variable {σ V F : Type}

def withCode (settings : Settings) (heading code : String) : String :=
  if settings.showCode && !code.isEmpty then heading ++ "\n" ++ code else heading

def failureText (source : String) (d : Diagnostic) : String :=
  if source.isEmpty then d.headline else d.excerpt source

def report (s : Session σ V) : Outcome → Option String
  | .definition _ code => some (withCode s.settings "Read function definition:" code)
  | .external _ code => some (withCode s.settings "Read extern:" code)
  | .expression code value output =>
    let written := if output.isEmpty then [] else [withoutFinalNewlines output]
    let result := match value with
      | some x => ["Evaluated to " ++ valueText x]
      | none => []
    some ("\n".intercalate
      (withCode s.settings "Read top-level expression:" code :: written ++ result))
  | .skipped => none
  | .failed d => some (failureText s.source d)

end Session

def Outcome.isFailure : Outcome → Bool
  | .failed _ => true
  | _ => false

structure Report where
  failure : Bool
  text : String

structure Summary (σ V : Type) where
  reports : List Report
  failures : Nat
  final : Session σ V

namespace Session

variable {σ V F : Type}

def run (t : Target σ V F) (s : Session σ V) : Summary σ V :=
  let done := s.steps t
  { reports := done.filterMap fun step =>
      (s.report step.1).map fun text => ⟨step.1.isFailure, text⟩
    failures := done.countP fun step => step.1.isFailure
    final := s.after done }

end Session

end Reckon
