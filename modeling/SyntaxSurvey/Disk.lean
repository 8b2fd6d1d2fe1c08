import SyntaxSurvey.FileSystem.Operations

/-! The disk as a directory tree. Loading takes in only what a run can look at: the way to each
path of interest, and all that lies below those that are walked. Storing writes what has changed
back to the disk. -/

namespace SyntaxSurvey.Disk

open FileSystem

/-- What is taken in of a path: the way to it and what is there, or all that lies below it with the
bytes of the files whose names end so. -/
inductive Interest where
  | alone (path : Path)
  | walked (path : Path) (suffix : String)

/-- The location of a place that is given from the root and without links. -/
def locationOf (place : IO.FS.DirEntry) : Location :=
  (Path.ofString place.path.toString).parts

/-- The place that a name is resolved to, if it exists. -/
def resolve? (place : IO.FS.DirEntry) : IO (Option String) := do
  try
    return some (← IO.FS.realPath place.path).toString
  catch _ => return none

/-- Put a directory at a location unless there is one. -/
def assignDirectory (tree : Entry) (location : Location) : Entry :=
  match tree.at? location with
  | some (.directory _) => tree
  | _ => tree.put location (.directory [])

/-- Take in a place in a directory that is given without links. -/
partial def take (suffix : Option String) (needed : Bool) (tree : Entry)
    (place : IO.FS.DirEntry) : IO Entry := do
  let location := locationOf place
  let kind ← try
      pure (some (← place.path.symlinkMetadata).type)
    catch _ => pure none
  match kind with
  | some .dir =>
    let mut tree := assignDirectory tree location
    if suffix.isSome then
      for child in ← place.path.readDir do
        let needed := suffix.any fun ending => child.fileName.endsWith ending
        tree ← take suffix needed tree child
    return tree
  | some .symlink =>
    match ← resolve? place with
    | none => return tree.put location (.link "")
    | some target => take none needed (tree.put location (.link target)) ⟨"/", target⟩
  | some .file =>
    if needed then
      return tree.put location (.file (← IO.FS.readBinFile place.path).toList)
    else if (tree.at? location).isSome then return tree
    else return tree.put location (.file [])
  | _ => return tree

/-- Take in the way from a directory that is given without links, and what it leads to. -/
def follow (suffix : Option String) (tree : Entry) (directory : String) :
    List String → IO Entry
  | [] => take suffix true tree ⟨"/", directory⟩
  | name :: rest => do
    let place : IO.FS.DirEntry := ⟨directory, name⟩
    let tree ← if name = ".." then pure tree else take none true tree place
    match ← resolve? place with
    | none => return tree
    | some directory => follow suffix tree directory rest

def load (interests : List Interest) : IO FileSystem := do
  let here := (← IO.currentDir).toString
  let location := (Path.ofString here).parts
  let mut tree := assignDirectory (.directory []) location
  for interest in interests do
    let (path, suffix) := match interest with
      | .alone path => (path, none)
      | .walked path suffix => (path, some suffix)
    tree ← follow suffix tree (if path.anchor = .here then here else "/") path.parts
  return ⟨tree, location⟩

def store (before after : FileSystem) : IO Unit := do
  for (path, entry) in ({ after with here := [] }).changesSince { before with here := [] } do
    let place := "/" ++ path.text
    match entry with
    | .directory _ => IO.FS.createDir place
    | .file content => IO.FS.writeBinFile place ⟨content.toArray⟩
    | .link _ => pure ()

end SyntaxSurvey.Disk
