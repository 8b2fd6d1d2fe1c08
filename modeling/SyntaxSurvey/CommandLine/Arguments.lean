import SyntaxSurvey.CommandLine.Given
import SyntaxSurvey.CommandLine.Word
import SyntaxSurvey.Number.Decimal
import SyntaxSurvey.Survey

/-! The arguments of a command line. Words are read from left to right. The first plain word is the
root, and the mode has to follow it at once: after any other word it is too late for one. -/

namespace SyntaxSurvey.CommandLine

open Number (Binary64)

structure Options where
  mode : Mode
  suffix : Given String
  directory : Given Path
  scale : Given Binary64
  report : Given Path
  quiet : Bool
  verbose : Bool
  detailed : Bool
  logFile : Given Path

def Options.standard : Options :=
  ⟨.parse, .nothing, .nothing, .nothing, .nothing, false, false, false, .nothing⟩

structure Arguments where
  root : Path
  options : Options

inductive Turn where
  | root
  | mode
  | surplus
  deriving DecidableEq, Repr

/-- What was read so far, and the words that nothing is known to do with. -/
structure Progress where
  turn : Turn
  root : Option Path
  options : Options
  surplus : List String

namespace Options

/-- Follow a flag without a value. The flag for help ends the reading. -/
def switch (o : Options) : Flag → Except Stop Options
  | .help => .error .help
  | .quiet => .ok { o with quiet := true }
  | .verbose => .ok { o with verbose := true }
  | .detailed => .ok { o with detailed := true }
  | flag => .error (.misuse (.valueMissing flag))

def switchAll (o : Options) : List Flag → Except Stop Options
  | [] => .ok o
  | flag :: flags =>
    match o.switch flag with
    | .error stop => .error stop
    | .ok o => switchAll o flags

/-- Follow a flag whose value was taken away. -/
def clear (o : Options) : Flag → Options
  | .suffix => { o with suffix := .emptied }
  | .directory => { o with directory := .emptied }
  | .scale => { o with scale := .emptied }
  | .report => { o with report := .emptied }
  | .logFile => { o with logFile := .emptied }
  | .help | .quiet | .verbose | .detailed => o

/-- Follow a flag with its value. -/
def assign (o : Options) (flag : Flag) (value : String) : Except Stop Options :=
  match flag with
  | .suffix => .ok { o with suffix := .value value }
  | .directory => .ok { o with directory := .value (.ofString value) }
  | .report => .ok { o with report := .value (.ofString value) }
  | .logFile => .ok { o with logFile := .value (.ofString value) }
  | .scale =>
    match Binary64.read? value with
    | some scale => .ok { o with scale := .value scale }
    | none => .error (.misuse (.notANumber flag value))
  | .help | .quiet | .verbose | .detailed => .error (.misuse (.valueNeedless flag value))

def choose (o : Options) (text : String) : Except Stop Options :=
  if text = Word.separatorText then .ok o
  else if text = Mode.parse.name then .ok { o with mode := .parse }
  else if text = Mode.images.name then .ok { o with mode := .images }
  else .error (.misuse (.unknownMode text))

end Options

/-- The flags of one letter that are written in one word. -/
def cluster (flag : Flag) : List Char → Except Stop (List Flag)
  | [] => .ok [flag]
  | c :: cs =>
    match Flag.ofSpelling? (String.ofList ['-', c]) with
    | some next => (cluster next cs).map (flag :: ·)
    | none => .error (.misuse (.valueNeedless flag (String.ofList (c :: cs))))

namespace Progress

def start : Progress :=
  ⟨.root, none, .standard, []⟩

/-- After a word that is neither the root nor the mode. -/
def closeMode (p : Progress) : Progress :=
  if p.turn = .mode then { p with turn := .surplus } else p

/-- Keep a word that nothing is known to do with. -/
def keep (p : Progress) (text : String) : Progress :=
  { p with surplus := p.surplus ++ [text] }

def withOptions (p : Progress) (options : Except Stop Options) : Except Stop Progress :=
  options.map fun options => { p with options := options }

def take (p : Progress) (text : String) : Except Stop Progress :=
  match p.turn with
  | .root => .ok { p with turn := .mode, root := some (.ofString text) }
  | .mode => { p with turn := .surplus }.withOptions (p.options.choose text)
  | .surplus => .ok (p.keep text)

/-- Follow a flag to which a value is attached. -/
def attach (p : Progress) (flag : Flag) (spelling value : String) : Except Stop Progress :=
  if flag.takesValue then
    if value = Word.separatorText then .ok { p with options := p.options.clear flag }
    else p.withOptions (p.options.assign flag value)
  else if spelling.startsWith "--" || value = "" then
    .error (.misuse (.valueNeedless flag value))
  else match cluster flag value.toList with
    | .error stop => .error stop
    | .ok flags => p.withOptions (p.options.switchAll flags)

/-- Read words. The separator belongs to the plain word before it or after it, as long as that is
the root or the mode. -/
def readAll (p : Progress) : List Word → Except Stop Progress
  | [] => .ok p
  | .unknown text :: rest => readAll (p.closeMode.keep text) rest
  | .option flag spelling (some value) :: rest =>
    match p.closeMode.attach flag spelling value with
    | .error stop => .error stop
    | .ok p => readAll p rest
  | .option flag _ none :: rest =>
    if flag.takesValue then
      match rest with
      | .plain value :: rest =>
        match p.closeMode.withOptions (p.options.assign flag value) with
        | .error stop => .error stop
        | .ok p => readAll p rest
      | _ => .error (.misuse (.valueMissing flag))
    else match p.closeMode.withOptions (p.options.switch flag) with
      | .error stop => .error stop
      | .ok p => readAll p rest
  | .plain text :: .separator :: rest =>
    match p.take text with
    | .error stop => .error stop
    | .ok q => readAll (if p.turn = .surplus then q.keep Word.separatorText else q) rest
  | .plain text :: rest =>
    match p.take text with
    | .error stop => .error stop
    | .ok p => readAll p rest
  | .separator :: rest =>
    readAll (if p.turn = .root && !rest.isEmpty then p else p.keep Word.separatorText) rest

end Progress

namespace Arguments

def scale (a : Arguments) : Binary64 :=
  a.options.scale.getD Image.defaultScale

/-- The arguments with a scale that can be used as far as its sign tells. -/
def checked (a : Arguments) : Except Stop Arguments :=
  if a.options.scale = .emptied then .error (.broken (.valueMissing .scale))
  else if a.scale.isAtMostZero then .error (.misuse .scaleNotPositive)
  else .ok a

/-- The arguments when all words were read. -/
def ofProgress (p : Progress) : Except Stop Arguments :=
  match p.root with
  | none => .error (.misuse .rootMissing)
  | some root =>
    if p.surplus.isEmpty then checked ⟨root, p.options⟩
    else .error (.misuse (.unrecognized p.surplus))

def read (texts : List String) : Except Stop Arguments :=
  match Word.ofStrings texts with
  | .error complaint => .error (.misuse complaint)
  | .ok words =>
    match Progress.start.readAll words with
    | .error stop => .error stop
    | .ok p => ofProgress p

/-- How a suffix is shown whose value was taken away. -/
def emptySuffix : String := "[]"

def suffix (a : Arguments) : String :=
  match a.options.suffix with
  | .nothing => Discovery.defaultSuffix
  | .emptied => emptySuffix
  | .value suffix => suffix

def plan (a : Arguments) : Plan :=
  ⟨a.root, a.options.mode, a.suffix, a.options.directory.value?, .real a.scale⟩

end Arguments

end SyntaxSurvey.CommandLine
