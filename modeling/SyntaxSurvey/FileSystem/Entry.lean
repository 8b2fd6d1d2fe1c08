/-! Directory trees. A directory lists its entries by name; an entry is a file with its bytes, a
symbolic link with its target as it was written, or a directory. There are no permissions: whoever
runs may list every directory, read every file and write wherever there is a place. -/

namespace SyntaxSurvey.FileSystem

/-- An entry of a directory. Names are texts, so that a file whose name has bytes that are no text is
in no such tree. Neither are devices, pipes and sockets, nor files that have several names. -/
inductive Entry where
  | file (content : List UInt8)
  | link (target : String)
  | directory (entries : List (String × Entry))
  deriving Repr, Inhabited

/-- A place in a directory tree: the names on the way from the root, none of which is a link. -/
abbrev Location := List String

namespace Entry

def child? : Entry → String → Option Entry
  | .directory entries, name => entries.lookup name
  | _, _ => none

def at? (entry : Entry) : Location → Option Entry
  | [] => some entry
  | name :: rest => (entry.child? name).bind (at? · rest)

/-- Replace the entry of that name, or add it at the end. -/
def assign (name : String) (entry : Entry) : List (String × Entry) → List (String × Entry)
  | [] => [(name, entry)]
  | (other, old) :: rest =>
    if name = other then (other, entry) :: rest else (other, old) :: assign name entry rest

/-- Put an entry at a location whose ancestors are directories. -/
def put (entry : Entry) : Location → Entry → Entry
  | [], new => new
  | name :: rest, new =>
    match entry with
    | .directory entries =>
      .directory (assign name (put ((entries.lookup name).getD (.directory [])) rest new) entries)
    | other => other

mutual

def descendants : Entry → List (List String × Entry)
  | .directory entries => listed entries
  | _ => []

def listed : List (String × Entry) → List (List String × Entry)
  | [] => []
  | (name, entry) :: rest =>
    ([name], entry) :: (descendants entry).map (fun (names, found) => (name :: names, found))
      ++ listed rest

end

end Entry

end SyntaxSurvey.FileSystem
