/-
  The command-line program.

  It reads a program of the language from a file or the standard input, and reports on
  each construct in turn.
-/
import Reckon.CommandLine.Run

open Reckon.CommandLine

/-- The system's code for reading a directory as if it were a file. -/
def directoryCode : UInt32 := 21

def readFile (path : String) : IO (Except ReadFailure ByteArray) := do
  try
    return .ok (← IO.FS.readBinFile path)
  catch
    | .noFileOrDirectory .. => return .error .missing
    | .inappropriateType _ code _ =>
      return .error (if code = directoryCode then .isDirectory else .notDirectory)
    | .invalidArgument .. => return .error .nameTooLong
    | e => throw e

def finish (exit : Exit) : IO UInt32 := do
  IO.print exit.out
  IO.eprint exit.err
  return exit.code.toUInt32

def main (arguments : List String) : IO UInt32 := do
  match readArguments arguments with
  | .error _ =>
    IO.eprintln "error: the arguments cannot be used"
    return 2
  | .ok .version => finish { code := 0, out := versionText, err := "" }
  | .ok (.process a) =>
    match a.file with
    | some path => finish (processFile a path (← readFile path))
    | none => finish (processInput a (← (← IO.getStdin).readBinToEnd))
