import SyntaxSurvey.CommandLine.Complaint
import SyntaxSurvey.Text.Word

/-! Words of the command line, told apart by their looks alone: flags, which may be cut short as
long as it is clear which one is meant, the separator after which there are no flags, and plain
words. -/

namespace SyntaxSurvey.CommandLine

inductive Word where
  /-- A value, or the root or the mode. -/
  | plain (text : String)
  /-- The mark after which all words are plain. -/
  | separator
  /-- A flag in one of its spellings, and the value that is attached to it. -/
  | option (flag : Flag) (spelling : String) (attached : Option String)
  /-- A word that looks like a flag but is none. -/
  | unknown (text : String)
  deriving DecidableEq, Repr

namespace Word

def separatorText : String := "--"

/-- The parts of a text before and after its first equals sign. -/
def splitValue (s : String) : String × Option String :=
  let cs := s.toList
  match cs.dropWhile (· != '=') with
  | [] => (s, none)
  | _ :: value => (String.ofList (cs.takeWhile (· != '=')), some (String.ofList value))

/-- The readings of a text as a flag that is cut short, or as a flag of one letter with something
attached to it. -/
def readings (s : String) : List Word :=
  if s.startsWith "--" then
    let (start, attached) := splitValue s
    (Flag.listed.filter fun (spelling, _) => start.toList.isPrefixOf spelling.toList).map
      fun (spelling, flag) => .option flag spelling attached
  else
    let letter := String.ofList (s.toList.take 2)
    match Flag.ofSpelling? letter with
    | some flag => [.option flag letter (some (String.ofList (s.toList.drop 2)))]
    | none => []

def spelling : Word → String
  | .plain text => text
  | .separator => separatorText
  | .option _ spelling _ => spelling
  | .unknown text => text

def isDigit (c : Char) : Bool :=
  Text.isDecimal c

/-- A minus sign and a number without an exponent. A line feed may follow. -/
def isNegativeNumber (s : String) : Bool :=
  match s.toList with
  | '-' :: cs =>
    let cs := if cs.getLast? = some '\n' then cs.dropLast else cs
    match cs.dropWhile isDigit with
    | [] => !cs.isEmpty
    | '.' :: digits => !digits.isEmpty && digits.all isDigit
    | _ => false
  | _ => false

/-- The word for a text that is no flag as it stands. -/
def ofReadings (s : String) : List Word → Except Complaint Word
  | [] =>
    if isNegativeNumber s || s.toList.contains ' ' then .ok (.plain s) else .ok (.unknown s)
  | [word] => .ok word
  | words => .error (.ambiguous s (words.map spelling))

def ofString (s : String) : Except Complaint Word :=
  if !s.startsWith "-" then .ok (.plain s)
  else match Flag.ofSpelling? s with
    | some flag => .ok (.option flag s none)
    | none =>
      if s = "-" then .ok (.plain s)
      else
        let (start, attached) := splitValue s
        match attached, Flag.ofSpelling? start with
        | some value, some flag => .ok (.option flag start (some value))
        | _, _ => ofReadings s (readings s)

def ofStrings : List String → Except Complaint (List Word)
  | [] => .ok []
  | s :: rest =>
    if s = separatorText then .ok (.separator :: rest.map .plain)
    else match ofString s with
      | .error complaint => .error complaint
      | .ok word => (ofStrings rest).map (word :: ·)

end Word

end SyntaxSurvey.CommandLine
