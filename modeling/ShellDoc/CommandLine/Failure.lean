import ShellDoc.Glob.Pattern
import ShellDoc.Source

/-!
# Failures

What ends a run, and the report of it. A failure has words of its own and often a cause, which the
report gives behind them.
-/

namespace ShellDoc.CommandLine

/-- What ends a run. -/
inductive Failure where
  | blockTakesNoFiles
  | outputRequired
  | unknownFormat (name : Text)
  | inputNotText
  | directoryNotCreated (p : Path) (cause : FileError)
  | badPattern (pattern : Text) (cause : Glob.PatternError)
  | badSource (e : Source.SourceError)
  | notWritten (p : Path) (cause : FileError)
deriving DecidableEq, Repr

namespace Failure

/-- The words for a failure without its cause. -/
def message : Failure → Text
  | .blockTakesNoFiles =>
    "--block reads a single comment block from stdin and takes no files".toList
  | .outputRequired => "--output is required when files are given".toList
  | .unknownFormat name => "unknown format: ".toList ++ name ++ ". Use json or markdown".toList
  | .inputNotText => "failed to read stdin".toList
  | .directoryNotCreated p _ => "failed to create output directory: ".toList ++ p.text
  | .badPattern pattern _ => "invalid glob pattern: ".toList ++ pattern
  | .badSource e => e.message
  | .notWritten p _ => "failed to write ".toList ++ p.text

/-- The words for the cause of a failure. -/
def cause? : Failure → Option Text
  | .blockTakesNoFiles | .outputRequired | .unknownFormat _ => none
  | .inputNotText => some FileError.notText.message
  | .directoryNotCreated _ cause => some cause.message
  | .badPattern _ cause => some cause.message
  | .badSource e => e.cause?.map FileError.message
  | .notWritten _ cause => some cause.message

/-- The report of a failure. -/
def report (f : Failure) : Text :=
  "Error: ".toList ++ f.message ++ ['\n'] ++
    match f.cause? with
    | none => []
    | some cause => "\nCaused by:\n    ".toList ++ cause ++ ['\n']

end Failure

end ShellDoc.CommandLine
