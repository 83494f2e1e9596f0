import ShellDoc.Path
import ShellDoc.Terminal

/-!
# Command-line arguments

Arguments are options, in a long and mostly also in a short form, and files. Short options may be
written together behind one dash; the last of them may be a setting, and then the rest of the
argument is its value. A value may also stand behind an equals sign or be the next argument.
Everything behind `--` is a file, and so is a lone dash.

**When a value is checked.** A value that stands in its own argument is looked at when the next
option or file arrives, or at the end. So an argument that is no option, or a flag with a value, is
reported before a bad value in front of it.

The program leaves the reading of its arguments to a library for command lines, which is not among
its own sources, and tells it no more than which options there are. What stands here are the rules
of that library. Assumed of it are the ways to write an option and its value, the order in which the
arguments are looked at, and the words for an error.
-/

namespace ShellDoc.CommandLine

/-- A setting: an option with a value. -/
inductive Setting where
  | output
  | format
  | marker
deriving DecidableEq, Repr

/-- A flag: an option without a value. -/
inductive Flag where
  | block
  | verbose
  | quiet
deriving DecidableEq, Repr

/-- How a setting is shown in messages. -/
def Setting.display : Setting → Text
  | .output => "--output <OUTPUT>".toList
  | .format => "--format <FORMAT>".toList
  | .marker => "--marker <MARKER>".toList

/-- How a flag is shown in messages. -/
def Flag.display : Flag → Text
  | .block => "--block".toList
  | .verbose => "--verbose".toList
  | .quiet => "--quiet".toList

/-- An option: a setting, a flag, or the request for help. -/
inductive Switch where
  | setting (s : Setting)
  | flag (f : Flag)
  | help
deriving DecidableEq, Repr

/-- How an option is shown in messages. -/
def Switch.display : Switch → Text
  | .setting s => s.display
  | .flag f => f.display
  | .help => "--help".toList

/-- The options by their long names. -/
def longSwitches : List (Text × Switch) :=
  [("output".toList, .setting .output), ("format".toList, .setting .format),
    ("marker".toList, .setting .marker), ("block".toList, .flag .block),
    ("verbose".toList, .flag .verbose), ("quiet".toList, .flag .quiet), ("help".toList, .help)]

/-- The options by their short names. -/
def shortSwitches : List (Char × Switch) :=
  [('o', .setting .output), ('f', .setting .format), ('m', .setting .marker), ('v', .flag .verbose),
    ('q', .flag .quiet), ('h', .help)]

/-- What is wrong with the arguments. -/
inductive UsageError where
  | unexpected (argument : Text)
  | missingValue (s : Setting)
  | repeated (switch : Switch)
  | badMarker (value : Text)
  | unneededValue (value : Text) (switch : Switch)
deriving DecidableEq, Repr

/-- The words for an error in the arguments. What is taken from them is stripped of all that a
terminal might obey. -/
def UsageError.message : UsageError → Text
  | .unexpected argument =>
    "unexpected argument '".toList ++ Terminal.strip argument ++ "' found".toList
  | .missingValue s =>
    "a value is required for '".toList ++ s.display ++ "' but none was supplied".toList
  | .repeated switch =>
    "the argument '".toList ++ switch.display ++ "' cannot be used multiple times".toList
  | .badMarker value =>
    "invalid value '".toList ++ Terminal.strip value ++ "' for '".toList ++
      Setting.marker.display ++ "': ".toList ++
      if value = [] then "cannot parse char from empty string".toList
      else "too many characters in string".toList
  | .unneededValue value switch =>
    "unexpected value '".toList ++ Terminal.strip value ++ "' for '".toList ++ switch.display ++
      "' found; no more were expected".toList

/-- What the arguments ask for of one run. -/
structure Options where
  files : List Text
  output? : Option Path
  format : Text
  marker : Char
  block : Bool
  verbose : Bool
  quiet : Bool
deriving DecidableEq, Repr

/-- What the arguments ask for: the help text, or a run. -/
inductive Request where
  | help
  | run (options : Options)
deriving DecidableEq, Repr

/-- What the arguments read so far say. A pending setting has been named in an argument of its own;
its value, once there, has not been looked at. -/
structure Gathered where
  files : List Text
  output? : Option Path
  format? : Option Text
  marker? : Option Char
  flags : List Flag
  pending? : Option (Setting × Option Text)
deriving DecidableEq, Repr

namespace Gathered

/-- What no arguments say. -/
def start : Gathered :=
  ⟨[], none, none, none, [], none⟩

/-- Whether a setting has its value. -/
def has (g : Gathered) : Setting → Bool
  | .output => g.output?.isSome
  | .format => g.format?.isSome
  | .marker => g.marker?.isSome

/-- Takes the value of a setting, which must be the first for it and of its kind. -/
def take (g : Gathered) (s : Setting) (value : Text) : Except UsageError Gathered :=
  if g.has s then .error (.repeated (.setting s))
  else
    match s, value with
    | .output, [] => .error (.missingValue .output)
    | .output, _ => .ok { g with output? := some ⟨value⟩ }
    | .format, _ => .ok { g with format? := some value }
    | .marker, [c] => .ok { g with marker? := some c }
    | .marker, _ => .error (.badMarker value)

/-- Looks at the pending setting. -/
def settle (g : Gathered) : Except UsageError Gathered :=
  match g.pending? with
  | none => .ok g
  | some (s, none) => .error (.missingValue s)
  | some (s, some value) => { g with pending? := none }.take s value

/-- Takes a setting with the value that is attached to it, or leaves it pending without one. -/
def takeSetting (g : Gathered) (s : Setting) (attached? : Option Text) :
    Except UsageError Gathered := do
  let g ← g.settle
  match attached? with
  | some value => g.take s value
  | none => return { g with pending? := some (s, none) }

/-- Takes a flag, which must be the first of its kind. -/
def takeFlag (g : Gathered) (f : Flag) : Except UsageError Gathered := do
  let g ← g.settle
  if f ∈ g.flags then .error (.repeated (.flag f)) else return { g with flags := f :: g.flags }

/-- Takes an argument that is no option: the value that the pending setting waits for, or a file. -/
def takeWord (g : Gathered) (word : Text) : Except UsageError Gathered := do
  match g.pending? with
  | some (s, none) => return { g with pending? := some (s, some word) }
  | _ =>
    let g ← g.settle
    return { g with files := g.files ++ [word] }

/-- Takes an argument that is a file whatever it looks like. -/
def takeFile (g : Gathered) (file : Text) : Except UsageError Gathered := do
  let g ← g.settle
  return { g with files := g.files ++ [file] }

/-- The options of a run, with the defaults for what was not given. -/
def options (g : Gathered) : Options where
  files := g.files
  output? := g.output?
  format := g.format?.getD "json".toList
  marker := g.marker?.getD '#'
  block := .block ∈ g.flags
  verbose := .verbose ∈ g.flags
  quiet := .quiet ∈ g.flags

end Gathered

/-- A step of reading the arguments: on with what is gathered, or an end for the help text. -/
inductive Step where
  | next (g : Gathered)
  | help
deriving DecidableEq, Repr

/-- Reads an option without a value. -/
def readSwitch (g : Gathered) : Switch → Except UsageError Step
  | .setting s => Step.next <$> g.takeSetting s none
  | .flag f => Step.next <$> g.takeFlag f
  | .help => do
    let _ ← g.settle
    return .help

/-- Reads an option in its long form, without its dashes. -/
def readLong (g : Gathered) (argument : Text) : Except UsageError Step :=
  let name := argument.takeWhile (· != '=')
  match longSwitches.lookup name, argument.dropWhile (· != '=') with
  | none, _ => .error (.unexpected ("--".toList ++ name))
  | some switch, [] => readSwitch g switch
  | some (.setting s), _ :: value => Step.next <$> g.takeSetting s (some value)
  | some switch, _ :: value => .error (.unneededValue value switch)

/-- Reads options in their short forms, without the dash. What follows a setting is its value, an
equals sign between them apart. -/
def readShort (g : Gathered) : Text → Except UsageError Step
  | [] => .ok (.next g)
  | c :: rest =>
    match shortSwitches.lookup c, rest with
    | none, _ => .error (.unexpected ['-', c])
    | some (.setting s), '=' :: value => Step.next <$> g.takeSetting s (some value)
    | some (.setting s), _ :: _ => Step.next <$> g.takeSetting s (some rest)
    | some switch, _ => do
      match ← readSwitch g switch with
      | .next g => readShort g rest
      | .help => return .help

/-- Reads one argument in front of `--`. -/
def readArgument (g : Gathered) (argument : Text) : Except UsageError Step :=
  match argument with
  | '-' :: '-' :: name => readLong g name
  | '-' :: c :: rest => readShort g (c :: rest)
  | _ => Step.next <$> g.takeWord argument

/-- Reads the remaining arguments. -/
def readArguments (g : Gathered) : List Text → Except UsageError Step
  | [] => Step.next <$> g.settle
  | argument :: rest =>
    if argument = "--".toList then do
      let g ← rest.foldlM Gathered.takeFile g
      Step.next <$> g.settle
    else do
      match ← readArgument g argument with
      | .next g => readArguments g rest
      | .help => return .help

/-- Reads the arguments of the program. -/
def parse (arguments : List Text) : Except UsageError Request := do
  match ← readArguments .start arguments with
  | .next g => return .run g.options
  | .help => return .help

end ShellDoc.CommandLine
