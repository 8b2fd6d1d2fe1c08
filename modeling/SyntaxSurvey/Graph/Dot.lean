import SyntaxSurvey.Graph.Statement

/-! Graphs as DOT text. Labels are written bare where the language allows it and between double
quotes elsewhere; within quotes a backslash and a double quote have a backslash before them, and
all other characters stand for themselves. -/

namespace SyntaxSurvey.Graph

/-- A letter of the ASCII range or an underscore. -/
def isNameStart (c : Char) : Bool :=
  c.isAlpha || c == '_'

def isNameChar (c : Char) : Bool :=
  c.isAlphanum || c == '_'

def isName : List Char → Bool
  | [] => false
  | c :: cs => isNameStart c && cs.all isNameChar

/-- Digits with at most one point, and at least one digit. -/
def isUnsignedNumeral (cs : List Char) : Bool :=
  let fraction := cs.dropWhile Char.isDigit
  match fraction with
  | [] => !cs.isEmpty
  | '.' :: digits =>
    digits.all Char.isDigit && (fraction.length < cs.length || !digits.isEmpty)
  | _ => false

def isNumeral : List Char → Bool
  | '-' :: cs => isUnsignedNumeral cs
  | cs => isUnsignedNumeral cs

/-- The words that the language keeps for itself, in any case. -/
def keywords : List String :=
  ["node", "edge", "graph", "digraph", "subgraph", "strict"]

def isBareWord (cs : List Char) : Bool :=
  isName cs || isNumeral cs

/-- A text that is written without quotes. One line feed at the end does not count when names
and numerals are told from other texts. -/
def isBare (cs : List Char) : Bool :=
  (isBareWord cs || (cs.getLast? == some '\n' && isBareWord cs.dropLast))
    && !keywords.contains (String.ofList (cs.map Char.toLower))

def escapeChar (c : Char) : List Char :=
  if c = '\\' ∨ c = '"' then ['\\', c] else [c]

def writeValue (s : String) : List Char :=
  if isBare s.toList then s.toList
  else '"' :: s.toList.flatMap escapeChar ++ ['"']

/-- The attributes that a shape comes with. -/
def Shape.attributes : Shape → String
  | .ellipse => "shape=ellipse"
  | .box => "fillcolor=lightgray shape=box style=filled"

def nodeName (number : Nat) : String :=
  s!"node{number}"

def Statement.write : Statement → List Char
  | .node number label shape =>
    s!"\t{nodeName number} [label=".toList ++ writeValue label
      ++ s!" {shape.attributes}]\n".toList
  | .edge source target => s!"\t{nodeName source} -> {nodeName target}\n".toList

def heading (resolution : Int) : String :=
  "// Parse Tree\ndigraph \x7b\n"
    ++ s!"\tgraph [bgcolor=white dpi={resolution} rankdir=TB]\n"
    ++ "\tnode [fontname=Helvetica fontsize=11]\n"

def write (graph : Graph) : List Char :=
  (heading graph.resolution).toList ++ graph.statements.flatMap Statement.write ++ ['\x7d', '\n']

def text (graph : Graph) : String :=
  String.ofList graph.write

end SyntaxSurvey.Graph
