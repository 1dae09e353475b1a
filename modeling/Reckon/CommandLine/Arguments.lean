/-
  The arguments of the command line.

  Arguments are taken from left to right.  A long option has its value behind an equals
  sign or in the next argument, which must not look like an option; `--` ends the
  options.  A request for the version counts as soon as it is reached.  All faults are
  alike: the arguments cannot be used.
-/
import Reckon.Operator.Assignment
import Reckon.Session.Basic

namespace Reckon.CommandLine

/-- What the arguments have said so far; nothing for what they have not said. -/
structure Arguments where
  file : Option String := none
  moduleName : Option String := none
  operators : List (Char × Strength) := []
  noEval : Bool := false
  quietIr : Bool := false
  depthLimit : Option Nat := none
  verbose : Bool := false

inductive Request where
  | version
  | process (arguments : Arguments)

structure Unusable where

inductive ValueOption where
  | moduleName
  | operator
  | depthLimit

inductive Switch where
  | noEval
  | quietIr
  | verbose
  | version

inductive AnyOption where
  | value (option : ValueOption)
  | switch (option : Switch)

def longOption? : String → Option AnyOption
  | "module-name" => some (.value .moduleName)
  | "operator" => some (.value .operator)
  | "max-call-depth" => some (.value .depthLimit)
  | "no-eval" => some (.switch .noEval)
  | "quiet-ir" => some (.switch .quietIr)
  | "verbose" => some (.switch .verbose)
  | "version" => some (.switch .version)
  | _ => none

def shortOption? : Char → Option Switch
  | 'v' => some .verbose
  | 'V' => some .version
  | _ => none

/-- An unsigned machine word in decimal digits, a plus sign allowed. -/
def readWord (text : String) : Option Nat :=
  let digits := match text.toList with
    | '+' :: digits => digits
    | digits => digits
  (readNatural digits).filter fun n => decide (n < Nat.pow 2 64)

/-- An argument in the place of a value that is taken for an option. -/
def looksLikeOption (argument : String) : Bool :=
  match argument.toList with
  | '-' :: _ :: _ => true
  | _ => false

/-- The part before the first equals sign, and what follows it if there is one. -/
def cutAtFirst : List Char → List Char × Option (List Char)
  | [] => ([], none)
  | c :: rest =>
    if c = '=' then ([], some rest)
    else
      let (before, after) := cutAtFirst rest
      (c :: before, after)

namespace Arguments

/-- Take the value of an option.  Only operators may be given more than once. -/
def setValue (a : Arguments) (option : ValueOption) (value : String) :
    Except Unusable Arguments :=
  match option with
  | .moduleName =>
    if a.moduleName.isSome then .error ⟨⟩ else .ok { a with moduleName := some value }
  | .operator =>
    match readAssignment value with
    | .ok operator => .ok { a with operators := a.operators ++ [operator] }
    | .error _ => .error ⟨⟩
  | .depthLimit =>
    if a.depthLimit.isSome then .error ⟨⟩
    else match readWord value with
      | some n => .ok { a with depthLimit := some n }
      | none => .error ⟨⟩

/-- Take a switch, once.  The version ends the reading of arguments. -/
def setSwitch (a : Arguments) : Switch → Except Unusable Request
  | .noEval => if a.noEval then .error ⟨⟩ else .ok (.process { a with noEval := true })
  | .quietIr => if a.quietIr then .error ⟨⟩ else .ok (.process { a with quietIr := true })
  | .verbose => if a.verbose then .error ⟨⟩ else .ok (.process { a with verbose := true })
  | .version => .ok .version

def setLetters (a : Arguments) : List Char → Except Unusable Request
  | [] => .ok (.process a)
  | letter :: letters =>
    match shortOption? letter with
    | none => .error ⟨⟩
    | some switch =>
      match a.setSwitch switch with
      | .ok (.process a) => a.setLetters letters
      | done => done

def setFile (a : Arguments) (path : String) : Except Unusable Arguments :=
  if a.file.isSome || path.isEmpty then .error ⟨⟩ else .ok { a with file := some path }

def setFiles (a : Arguments) : List String → Except Unusable Arguments
  | [] => .ok a
  | path :: paths =>
    match a.setFile path with
    | .ok a => a.setFiles paths
    | .error e => .error e

def read (a : Arguments) : List String → Except Unusable Request
  | [] => .ok (.process a)
  | argument :: more =>
    match argument.toList with
    | ['-', '-'] =>
      match a.setFiles more with
      | .ok a => .ok (.process a)
      | .error e => .error e
    | '-' :: '-' :: body =>
      let (name, attached) := cutAtFirst body
      match longOption? (String.ofList name), attached, more with
      | some (.switch switch), none, more =>
        match a.setSwitch switch with
        | .ok (.process a) => a.read more
        | done => done
      | some (.value option), some value, more =>
        match a.setValue option (String.ofList value) with
        | .ok a => a.read more
        | .error e => .error e
      | some (.value option), none, value :: more =>
        if looksLikeOption value then .error ⟨⟩
        else match a.setValue option value with
          | .ok a => a.read more
          | .error e => .error e
      | _, _, _ => .error ⟨⟩
    | '-' :: letter :: letters =>
      match a.setLetters (letter :: letters) with
      | .ok (.process a) => a.read more
      | done => done
    | _ =>
      match a.setFile argument with
      | .ok a => a.read more
      | .error e => .error e

def settings (a : Arguments) : Settings :=
  let standard : Settings := {}
  { moduleName := a.moduleName.getD standard.moduleName
    operators := a.operators
    showCode := !a.quietIr
    evaluate := !a.noEval
    depthLimit := a.depthLimit.getD standard.depthLimit }

end Arguments

def readArguments (arguments : List String) : Except Unusable Request :=
  Arguments.read {} arguments

end Reckon.CommandLine
