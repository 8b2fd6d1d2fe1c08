import SyntaxSurvey.Fault

/-! Layout: what line ends and indentation mean. Between brackets a line end means nothing.
Elsewhere it stands for itself and is followed by the tokens for the indentation of the next line,
when that is deeper or less deep than the line before. -/

namespace SyntaxSurvey.Parser

def newlineKind : String := "_NEWLINE"

def indentKind : String := "_INDENT"

def dedentKind : String := "_DEDENT"

def tabWidth : Nat := 8

/-- What is known of the layout since parsing started, or went on after a fault. -/
structure Layout where
  /-- Brackets that are open. -/
  depth : Nat
  /-- The indentations that are open, the innermost first. -/
  indents : List Nat
  /-- The last token that was read. -/
  read : Option Token
  /-- The last token that was given to the grammar. -/
  passed : Option Token
  deriving Repr, Inhabited

namespace Layout

def fresh : Layout :=
  ⟨0, [], none, none⟩

def current (indents : List Nat) : Nat :=
  indents.head?.getD 0

/-- The part of a text after its last line feed. -/
def afterLastLine? (cs : List Char) : Option (List Char) :=
  if cs.contains '\n' then some (cs.reverse.takeWhile (· != '\n')).reverse else none

def width (cs : List Char) : Nat :=
  cs.count ' ' + tabWidth * cs.count '\t'

/-- The indentations that are left when all deeper than `width` end, and how many end. -/
def close (width : Nat) : List Nat → Nat × List Nat
  | [] => (0, [])
  | indent :: outer =>
    if width < indent then
      let (count, left) := close width outer
      (count + 1, left)
    else (0, indent :: outer)

/-- What follows a token that was let through: tokens of the layout, the layout then, and a fault
when the new line is not aligned. -/
structure Step where
  tokens : List Token
  layout : Layout
  fault : Option Fault

/-- What follows a line end. -/
def afterNewline (l : Layout) (token : Token) : Except Fault Step :=
  match afterLastLine? token.text.toList with
  | none => .error .remarkAtEnd
  | some indentation =>
    let text := String.ofList indentation
    let width := width indentation
    if current l.indents < width then
      .ok ⟨[token.inPlace indentKind text], { l with indents := width :: l.indents }, none⟩
    else
      let (count, left) := close width l.indents
      .ok ⟨List.replicate count (token.inPlace dedentKind text), { l with indents := left },
        if current left = width then none else some (.ofDedent width (current left))⟩

/-- What follows a token that was let through. A closing bracket needs an open one, of whichever
sort. -/
def after (l : Layout) (token : Token) : Except Fault Step :=
  let l := { l with read := some token, passed := some token }
  if token.kind = newlineKind then l.afterNewline token
  else if token.kind ∈ ["LPAR", "LSQB", "LBRACE"] then
    .ok ⟨[], { l with depth := l.depth + 1 }, none⟩
  else if token.kind ∈ ["RPAR", "RSQB", "RBRACE"] then
    if l.depth = 0 then .error .unbalancedBracket
    else .ok ⟨[], { l with depth := l.depth - 1 }, none⟩
  else .ok ⟨[], l, none⟩

/-- Whether a token means nothing where it stands. -/
def drops (l : Layout) (kind : String) : Bool :=
  kind == newlineKind && decide (0 < l.depth)

/-- The tokens that end the open indentations at the end of the text. They have no text, and the
place of the last token that was read. -/
def closing (l : Layout) : List Token :=
  let origin := l.read.getD ⟨newlineKind, "", ⟨0, 0⟩, ⟨0, 0⟩⟩
  List.replicate l.indents.length (origin.inPlace dedentKind "")

end Layout

end SyntaxSurvey.Parser
