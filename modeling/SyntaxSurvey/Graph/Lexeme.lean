import SyntaxSurvey.Graph.Dot

/-! The lexical rules of DOT. A text is read piece by piece: blanks and remarks are passed over, and
what is left are keywords, bare identifiers, texts between quotes, markup between angle brackets,
marks and the signs of edges. Outside of these a number sign is refused. -/

namespace SyntaxSurvey.Graph

/-- A piece of DOT text. What stands between delimiters is kept as it is written. -/
inductive Lexeme where
  | keyword (word : List Char)
  | bare (word : List Char)
  | quoted (body : List Char)
  | markup (body : List Char)
  | mark (c : Char)
  | edge (directed : Bool)
  deriving DecidableEq, Repr

namespace Lexeme

def isSpace (c : Char) : Bool :=
  c == ' ' || c == '\t' || c == '\n' || c == '\r'

def marks : List Char :=
  ['\x7b', '\x7d', '[', ']', '=', ';', ',', ':', '+']

/-- A letter, an underscore, or any character beyond the ASCII range. -/
def isWordStart (c : Char) : Bool :=
  c.isAlpha || c == '_' || 128 ≤ c.toNat

def isWordChar (c : Char) : Bool :=
  isWordStart c || c.isDigit

/-- The piece that a word is. Words that the language keeps for itself are known in any case. -/
def ofWord (word : List Char) : Lexeme :=
  if keywords.contains (String.ofList (word.map Char.toLower)) then .keyword word else .bare word

/-- Read up to the quote that closes a text, and past it. A quote after an odd run of backslashes
does not close; whether such a run has just ended is given. -/
def readQuoted? (odd : Bool) : List Char → Option (List Char × List Char)
  | [] => none
  | c :: rest =>
    if c = '"' ∧ odd = false then some ([], rest)
    else (readQuoted? (c == '\\' && !odd) rest).map fun (body, rest) => (c :: body, rest)

/-- Read up to the bracket that closes markup, and past it; so many are open inside it. -/
def readMarkup? (depth : Nat) : List Char → Option (List Char × List Char)
  | [] => none
  | c :: rest =>
    if c = '>' ∧ depth = 0 then some ([], rest)
    else
      let inner := if c = '<' then depth + 1 else if c = '>' then depth - 1 else depth
      (readMarkup? inner rest).map fun (body, rest) => (c :: body, rest)

/-- What follows a remark that ends with an asterisk and a slash. -/
def afterRemark? : List Char → Option (List Char)
  | [] => none
  | '*' :: '/' :: rest => some rest
  | _ :: rest => afterRemark? rest

/-- What follows a remark, after its first slash. -/
def afterSlash? : List Char → Option (List Char)
  | '/' :: rest => some (rest.dropWhile (· != '\n'))
  | '*' :: rest => afterRemark? rest
  | _ => none

/-- Read digits with at most one point among them, and at least one digit. -/
def readNumeral? (cs : List Char) : Option (List Char × List Char) :=
  let whole := cs.takeWhile Char.isDigit
  match cs.dropWhile Char.isDigit with
  | '.' :: rest =>
    let fraction := rest.takeWhile Char.isDigit
    if whole.isEmpty && fraction.isEmpty then none
    else some (whole ++ '.' :: fraction, rest.dropWhile Char.isDigit)
  | rest => if whole.isEmpty then none else some (whole, rest)

/-- Read the piece that starts with a dash, after it. -/
def readDash? : List Char → Option (Lexeme × List Char)
  | '>' :: rest => some (.edge true, rest)
  | '-' :: rest => some (.edge false, rest)
  | rest => (readNumeral? rest).map fun (numeral, rest) => (.bare ('-' :: numeral), rest)

def next? (c : Char) (rest : List Char) : Option (Option Lexeme × List Char) :=
  if isSpace c then some (none, rest)
  else if isWordStart c then
    some (some (ofWord (c :: rest.takeWhile isWordChar)), rest.dropWhile isWordChar)
  else if marks.contains c then some (some (.mark c), rest)
  else if c = '"' then (readQuoted? false rest).map fun (body, rest) => (some (.quoted body), rest)
  else if c = '<' then (readMarkup? 0 rest).map fun (body, rest) => (some (.markup body), rest)
  else if c = '/' then (afterSlash? rest).map fun rest => (none, rest)
  else if c = '-' then (readDash? rest).map fun (lexeme, rest) => (some lexeme, rest)
  else (readNumeral? (c :: rest)).map fun (numeral, rest) => (some (.bare numeral), rest)

/-- The pieces of a text, if they are read in so many steps. -/
def allWithin : (steps : Nat) → List Char → Option (List Lexeme)
  | _, [] => some []
  | 0, _ :: _ => none
  | steps + 1, c :: rest =>
    match next? c rest with
    | none => none
    | some (lexeme, rest) => (allWithin steps rest).map (lexeme.toList ++ ·)

def all (cs : List Char) : Option (List Lexeme) :=
  allWithin cs.length cs

/-- A body between quotes with its escapes undone, from left to right. There is none when a backslash
has neither a quote nor a backslash after it. -/
def unescape? : List Char → Option (List Char)
  | [] => some []
  | '\\' :: '"' :: rest => (unescape? rest).map ('"' :: ·)
  | '\\' :: '\\' :: rest => (unescape? rest).map ('\\' :: ·)
  | '\\' :: _ => none
  | c :: rest => (unescape? rest).map (c :: ·)

/-- The text that a piece stands for where an identifier is asked for. -/
def identifier? : Lexeme → Option (List Char)
  | .bare word => some word
  | .quoted body => unescape? body
  | _ => none

end Lexeme

end SyntaxSurvey.Graph
