import SyntaxSurvey.Graph.Statement

/-! Sketches: what a graph shows of a tree. A sketch has labelled shapes and, below each, further
sketches from left to right. It is read back from statements that name nodes by their numbers,
wherever among them an edge is told of. -/

namespace SyntaxSurvey.Graph

/-- A labelled shape, and what hangs below it from left to right. -/
inductive Sketch where
  | node (label : String) (shape : Shape) (below : List Sketch)
  deriving Repr

namespace Sketch

mutual

/-- The sketch of a tree, or nothing for an absent part. -/
def ofTree : Tree → List Sketch
  | .node label children => [.node label .ellipse (ofTrees children)]
  | .leaf token => [.node (caption token) .box []]
  | .absent => []

def ofTrees : List Tree → List Sketch
  | [] => []
  | tree :: trees => ofTree tree ++ ofTrees trees

end

mutual

/-- The labelled shapes of a sketch, each before those below it. -/
def preorder : Sketch → List (String × Shape)
  | .node label shape below => (label, shape) :: preorders below

def preorders : List Sketch → List (String × Shape)
  | [] => []
  | sketch :: sketches => preorder sketch ++ preorders sketches

end

end Sketch

/-- The node that a statement adds: its number, label and shape. -/
def Statement.node? : Statement → Option (Nat × String × Shape)
  | .node number label shape => some (number, label, shape)
  | .edge _ _ => none

/-- The edge that a statement adds: where it starts and ends. -/
def Statement.edge? : Statement → Option (Nat × Nat)
  | .node _ _ _ => none
  | .edge source target => some (source, target)

/-- The nodes that statements add, in order. -/
def nodes (statements : List Statement) : List (Nat × String × Shape) :=
  statements.filterMap Statement.node?

def edges (statements : List Statement) : List (Nat × Nat) :=
  statements.filterMap Statement.edge?

/-- Where the edges lead that leave a node, in order. -/
def targets (statements : List Statement) (source : Nat) : List Nat :=
  (edges statements).filterMap fun edge => if edge.1 = source then some edge.2 else none

/-- The sketch that hangs at a node, when it is not deeper than the given depth. -/
def sketchAt? (statements : List Statement) : (depth : Nat) → (number : Nat) → Option Sketch
  | 0, _ => none
  | depth + 1, number =>
    match (nodes statements).lookup number,
      (targets statements number).mapM (sketchAt? statements depth) with
    | some (label, shape), some below => some (.node label shape below)
    | _, _ => none

def sketch? (statements : List Statement) : Option Sketch :=
  sketchAt? statements statements.length 0

end SyntaxSurvey.Graph
