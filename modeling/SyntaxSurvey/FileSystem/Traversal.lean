import SyntaxSurvey.FileSystem.Entry

/-! Traversing a directory tree. A directory is visited entry by entry in the order of their names,
files and directories together, and a directory is visited whole before the entry after it. -/

namespace SyntaxSurvey.FileSystem.Entry

mutual

/-- All that lies below an entry, each with the names on the way to it, in the order in which a
depth-first traversal comes to it. -/
def traversed : Entry → List (List String × Entry)
  | .directory entries =>
    ((visits entries).mergeSort fun visit other => decide (visit.1 ≤ other.1)).flatMap Prod.snd
  | _ => []

/-- The visits to some entries, each with the name of the entry: the entry itself, and all that lies
below it. -/
def visits : List (String × Entry) → List (String × List (List String × Entry))
  | [] => []
  | (name, entry) :: rest =>
    (name, ([name], entry) ::
      (traversed entry).map fun (names, found) => (name :: names, found)) :: visits rest

end

end SyntaxSurvey.FileSystem.Entry
