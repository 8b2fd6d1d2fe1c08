/-! The flags of the command line. -/

namespace SyntaxSurvey.CommandLine

inductive Flag where
  | help
  | suffix
  | directory
  | scale
  | report
  | quiet
  | verbose
  | detailed
  | logFile
  deriving DecidableEq, Repr

namespace Flag

def all : List Flag :=
  [.help, .suffix, .directory, .scale, .report, .quiet, .verbose, .detailed, .logFile]

/-- The ways to write a flag. -/
def spellings : Flag → List String
  | .help => ["-h", "--help"]
  | .suffix => ["--suffix"]
  | .directory => ["--output-dir"]
  | .scale => ["--scale"]
  | .report => ["--report"]
  | .quiet => ["--no-progress"]
  | .verbose => ["--verbose", "-v"]
  | .detailed => ["--detailed-logging"]
  | .logFile => ["--log-file"]

def takesValue : Flag → Bool
  | .suffix | .directory | .scale | .report | .logFile => true
  | .help | .quiet | .verbose | .detailed => false

def label (flag : Flag) : String :=
  "/".intercalate flag.spellings

/-- All spellings, each with its flag. -/
def listed : List (String × Flag) :=
  all.flatMap fun flag => flag.spellings.map fun spelling => (spelling, flag)

def ofSpelling? (s : String) : Option Flag :=
  listed.lookup s

end Flag

end SyntaxSurvey.CommandLine
