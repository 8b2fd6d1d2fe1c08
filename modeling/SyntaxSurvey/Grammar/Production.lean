/-! Productions of a grammar, with what each says about the tree that is built when it is used. A
production is written as one line of words: a name in capitals is a terminal and any other name a
nonterminal, a name with an exclamation mark leaves nothing in the tree, and an empty pair of
brackets leaves the mark of an absent part. -/

namespace SyntaxSurvey.Grammar

inductive Symbol where
  | terminal (name : String)
  | nonterminal (name : String)
  deriving DecidableEq, Hashable, Repr, Inhabited

inductive Part where
  | symbol (symbol : Symbol) (kept : Bool)
  | absent
  deriving DecidableEq, Repr, Inhabited

/-- A production. Its node gets the label; when it collapses, a node with one child is that
child. -/
structure Production where
  head : String
  parts : List Part
  label : String
  collapses : Bool
  deriving DecidableEq, Repr, Inhabited

def Symbol.ofName (name : String) : Symbol :=
  if name.toList.any Char.isLower then .nonterminal name else .terminal name

def Part.ofWord (word : String) : Part :=
  if word = "[]" then .absent
  else match word.toList.reverse with
    | '!' :: rest => .symbol (.ofName (String.ofList rest.reverse)) false
    | _ => .symbol (.ofName word) true

/-- The symbol of a part, if it is not the mark of an absent one. -/
def Part.symbol? : Part → Option Symbol
  | .symbol s _ => some s
  | .absent => none

namespace Production

/-- The right-hand side without marks. -/
def symbols (p : Production) : List Symbol :=
  p.parts.filterMap Part.symbol?

/-- The parts that a line of words stands for. -/
def readParts (line : String) : List Part :=
  ((line.toList.splitOnP (· == ' ')).filter (!·.isEmpty)).map fun word =>
    Part.ofWord (String.ofList word)

def plain (head : String) (lines : List String) : List Production :=
  lines.map fun line => ⟨head, readParts line, head, false⟩

/-- Productions whose nodes are named after the nonterminal, and that a single child
replaces. -/
def collapsing (head : String) (lines : List String) : List Production :=
  lines.map fun line => ⟨head, readParts line, head, true⟩

/-- Productions whose nodes have a name of their own. -/
def labelled (head label : String) (lines : List String) : List Production :=
  lines.map fun line => ⟨head, readParts line, label, false⟩

end Production

/-- Nonterminals whose nodes are replaced by their children wherever they stand. -/
def isTransparent (nonterminal : String) : Bool :=
  nonterminal.startsWith "_"

end SyntaxSurvey.Grammar
