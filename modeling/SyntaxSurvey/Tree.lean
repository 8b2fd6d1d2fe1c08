import SyntaxSurvey.Token

/-! Parse trees. -/

namespace SyntaxSurvey

/-- A parse tree: a node with a label, a token, or the mark of an absent part. -/
inductive Tree where
  | node (label : String) (children : List Tree)
  | leaf (token : Token)
  | absent
  deriving Repr, Inhabited

namespace Tree

/-- What stands in a parent's place for a transparent node: its children. -/
def spliced : Tree → List Tree
  | .node _ children => children
  | tree => [tree]

mutual

def leaves : Tree → List Token
  | .node _ children => leavesOf children
  | .leaf token => [token]
  | .absent => []

def leavesOf : List Tree → List Token
  | [] => []
  | tree :: trees => leaves tree ++ leavesOf trees

end

end Tree

end SyntaxSurvey
