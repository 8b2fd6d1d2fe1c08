import SyntaxSurvey.Grammar.Table
import SyntaxSurvey.Tree

/-! The stack of the parser. Each frame has the state after a symbol and the tree of that symbol;
below the last frame is the first state. Offering a terminal to the stack completes productions as
the table says and then puts the terminal on top. -/

namespace SyntaxSurvey.Parser

open Grammar

/-- A symbol that was read: the state after it and its tree. -/
structure Frame where
  state : Nat
  tree : Tree
  deriving Inhabited

/-- The symbols that were read and not yet completed, the last one first. -/
abbrev Stack := List Frame

def Stack.state : Stack → Nat
  | [] => 0
  | frame :: _ => frame.state

/-- The children that the parts of a production make of the trees of its symbols. -/
def childrenOf : List Part → List Tree → List Tree
  | [], _ => []
  | .absent :: parts, trees => .absent :: childrenOf parts trees
  | .symbol _ _ :: parts, [] => childrenOf parts []
  | .symbol symbol kept :: parts, tree :: trees =>
    let own := match kept, symbol with
      | false, _ => []
      | true, .terminal _ => [tree]
      | true, .nonterminal name => if isTransparent name then tree.spliced else [tree]
    own ++ childrenOf parts trees

def build (p : Production) (trees : List Tree) : Tree :=
  match p.collapses, childrenOf p.parts trees with
  | true, [tree] => tree
  | _, children => .node p.label children

/-- Replace the trees of the symbols of a production by its own tree. There is no result when the
stack is too small or the table has no state for it, which a table that was built for the stack's
states excludes. -/
def complete? (t : Table) (p : Production) (stack : Stack) : Option Stack :=
  let width := p.symbols.length
  let below := stack.drop width
  if stack.length < width then none
  else (t.goto? (Stack.state below) p.head).map fun state =>
    ⟨state, build p ((stack.take width).reverse.map (·.tree))⟩ :: below

inductive Offer where
  /-- The terminal is on top of the stack. -/
  | shifted (stack : Stack)
  /-- The terminal may not come; productions that were completed before this showed stay so. -/
  | refused (stack : Stack)
  /-- The text ends here and is a tree of the start. -/
  | accepted (tree : Tree)

/-- Offer a token with at most so many completions. -/
def offerWithin (t : Table) (token : Token) : (steps : Nat) → Stack → Offer
  | 0, stack => .refused stack
  | steps + 1, stack =>
    match t.action? (Stack.state stack) token.kind with
    | none => .refused stack
    | some (.shift state) => .shifted (⟨state, .leaf token⟩ :: stack)
    | some (.reduce p) =>
      match complete? t p stack with
      | none => .refused stack
      | some [] => .refused stack
      | some (frame :: below) =>
        if token.kind = endOfText ∧ t.final = some frame.state then .accepted frame.tree
        else offerWithin t token steps (frame :: below)

def offer (t : Table) (token : Token) (stack : Stack) : Offer :=
  offerWithin t token ((stack.length + 1) * (t.reductionBound + 1)) stack

end SyntaxSurvey.Parser
