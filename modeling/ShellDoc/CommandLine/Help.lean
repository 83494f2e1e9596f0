import ShellDoc.CommandLine.Arguments

/-!
# Help text

What the program prints when it is asked for help, and what it prints when it is not understood.
Most of the words are those of the library for command lines, and assumed.
-/

namespace ShellDoc.CommandLine

/-- How the program is called. -/
def usageLine : Text :=
  "Usage: doxysh [OPTIONS] [FILES]...".toList

/-- The help text. -/
def helpText : Text :=
  "Extract ## doc-comment metadata from zsh/bash function definitions\n\n".toList ++
  usageLine ++
  "\n\nArguments:\n".toList ++
  "  [FILES]...  Input files (glob patterns and directories supported). ".toList ++
  "If omitted, reads from stdin\n".toList ++
  "\nOptions:\n".toList ++
  "  -o, --output <OUTPUT>  Output directory (required when files are given)\n".toList ++
  "  -f, --format <FORMAT>  Output format: json (default), markdown [default: json]\n".toList ++
  "  -m, --marker <MARKER>  Comment-marker character; doc lines start with two of them ".toList ++
  "[default: #]\n".toList ++
  "      --block            Treat stdin as a single comment block ".toList ++
  "and print its metadata as JSON\n".toList ++
  "  -v, --verbose          Debug logging\n".toList ++
  "  -q, --quiet            Only log errors\n".toList ++
  "  -h, --help             Print help\n".toList

/-- The report of an error in the arguments. Behind its first line the library for command lines is
free: it may add tips, which are left out here, and it may fit the usage to the options that it has
read, or do without it. -/
def UsageError.report (e : UsageError) : Text :=
  "error: ".toList ++ e.message ++ "\n\n".toList ++ usageLine ++
    "\n\nFor more information, try '--help'.\n".toList

end ShellDoc.CommandLine
