import SyntaxSurvey.Graph.Lexeme

/-! Reading DOT text. Of the language there is what drawings of trees need: directed graphs of nodes,
edges and defaults, each on its own and with its attributes in one pair of brackets. -/

namespace SyntaxSurvey.Graph

/-- A name and the value that it is given. -/
abbrev Attribute := List Char × List Char

inductive Item where
  | defaults (subject : List Char) (attributes : List Attribute)
  | node (name : List Char) (attributes : List Attribute)
  | edge (source target : List Char)
  deriving DecidableEq, Repr

/-- What attributes say of a subject: a keyword stands for all that it names, and another piece for a
node. -/
def Item.about (subject : Lexeme) (attributes : List Attribute) : Option Item :=
  match subject with
  | .keyword word => some (.defaults word attributes)
  | _ => subject.identifier?.map (Item.node · attributes)

/-- Read statements up to the brace that closes the graph. Within brackets, the subject of the
statement is given with its attributes so far, last one first. -/
def readItems? : Option (Lexeme × List Attribute) → List Lexeme → Option (List Item)
  | none, [.mark '\x7d'] => some []
  | none, source :: .edge true :: target :: rest => do
    let source ← source.identifier?
    let target ← target.identifier?
    let items ← readItems? none rest
    return .edge source target :: items
  | none, subject :: .mark '[' :: rest => readItems? (some (subject, [])) rest
  | some (subject, attributes), .mark ']' :: rest => do
    let item ← Item.about subject attributes.reverse
    let items ← readItems? none rest
    return item :: items
  | some (subject, attributes), key :: .mark '=' :: value :: rest => do
    let key ← key.identifier?
    let value ← value.identifier?
    readItems? (some (subject, (key, value) :: attributes)) rest
  | _, _ => none

def read? (cs : List Char) : Option (List Item) :=
  match Lexeme.all cs with
  | some (.keyword word :: .mark '\x7b' :: rest) =>
    if word = "digraph".toList then readItems? none rest else none
  | _ => none

end SyntaxSurvey.Graph
