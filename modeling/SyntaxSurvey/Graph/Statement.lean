import SyntaxSurvey.Number.Quantity
import SyntaxSurvey.Text.Blank
import SyntaxSurvey.Tree

/-! Graphs of trees. A tree becomes a list of statements, each of which adds a node or an edge;
absent parts add nothing. Nodes are numbered in the order in which the tree is read from the top
down and from left to right, and an edge comes after all that hangs on it. -/

namespace SyntaxSurvey

open Number (Quantity)

inductive Graph.Shape where
  | ellipse
  | box
  deriving DecidableEq, Repr

/-- A step in drawing a graph. -/
inductive Graph.Statement where
  | node (number : Nat) (label : String) (shape : Graph.Shape)
  | edge (source target : Nat)
  deriving DecidableEq, Repr

/-- A graph: its resolution in dots per inch and what is drawn. -/
structure Graph where
  resolution : Int
  statements : List Graph.Statement
  deriving DecidableEq, Repr

namespace Graph

def longestLabel : Nat := 40

/-- A text of more characters than a label shows is cut and ends in three dots. -/
def clip (cs : List Char) : List Char :=
  if longestLabel < cs.length then cs.take (longestLabel - 3) ++ ['.', '.', '.'] else cs

/-- The label of a token: its text on one line, or its kind if the text is blank. -/
def caption (token : Token) : String :=
  let text := clip (Text.collapse token.text.toList)
  if text.isEmpty then token.kind else String.ofList text

def absentLabel : String := "None"

mutual

def nodeCount : Tree → Nat
  | .node _ children => 1 + nodeCounts children
  | .leaf _ => 1
  | .absent => 0

def nodeCounts : List Tree → Nat
  | [] => 0
  | tree :: trees => nodeCount tree + nodeCounts trees

end

mutual

/-- What a tree adds when its root gets the given number. -/
def drawFrom (number : Nat) : Tree → List Statement
  | .node label children =>
    .node number label .ellipse :: drawBelow number (number + 1) children
  | .leaf token => [.node number (caption token) .box]
  | .absent => []

/-- What the children of a node add when the first new node gets the number `next`. -/
def drawBelow (parent next : Nat) : List Tree → List Statement
  | [] => []
  | .absent :: trees => drawBelow parent next trees
  | tree :: trees =>
    drawFrom next tree ++ .edge parent next :: drawBelow parent (next + nodeCount tree) trees

end

/-- What is drawn of a tree. A tree that is absent as a whole is drawn as one box. -/
def draw : Tree → List Statement
  | .absent => [.node 0 absentLabel .box]
  | tree => drawFrom 0 tree

def baseResolution : Nat := 96

/-- The graph of a tree at a scale, which only sets the resolution. -/
def ofTree (tree : Tree) (scale : Quantity) : Except Quantity.Unbounded Graph :=
  (scale.roundedMultiple baseResolution).map fun resolution => ⟨resolution, draw tree⟩

end Graph

end SyntaxSurvey
