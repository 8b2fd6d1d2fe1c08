import SyntaxSurvey.FileSystem.Lookup

/-! Reading and writing files and making directories. An operation that changes something returns
the directory tree as it is afterwards; one that fails changes nothing, but making a chain of
directories may stop halfway. -/

namespace SyntaxSurvey.FileSystem

def read (fs : FileSystem) (path : Path) : Except Failure (List UInt8) :=
  match fs.find path with
  | .ok (.present _ (.file content)) => .ok content
  | .ok (.present _ _) => .error ⟨.isDirectory, path⟩
  | .ok (.absent _ _) => .error ⟨.notFound, path⟩
  | .error cause => .error ⟨cause, path⟩

/-- Change the bytes of the file that a path denotes, or make the file, which is empty before
the change. A link is followed, also one to a file that is yet to be made. -/
def update (fs : FileSystem) (path : Path) (change : List UInt8 → List UInt8) :
    Except Failure FileSystem :=
  match fs.findFor .making path with
  | .ok (.present location (.file content)) =>
    .ok { fs with root := fs.root.put location (.file (change content)) }
  | .ok (.present _ _) => .error ⟨.isDirectory, path⟩
  | .ok (.absent directory name) =>
    .ok { fs with root := fs.root.put (directory ++ [name]) (.file (change [])) }
  | .error cause => .error ⟨cause, path⟩

def write (fs : FileSystem) (path : Path) (content : List UInt8) : Except Failure FileSystem :=
  fs.update path fun _ => content

def append (fs : FileSystem) (path : Path) (content : List UInt8) : Except Failure FileSystem :=
  fs.update path (· ++ content)

/-- Make one directory. Any entry of that name is in the way, also a link to nothing. -/
def makeDirectory (fs : FileSystem) (path : Path) : Except Failure FileSystem :=
  match refuse? path, path.parts.getLast? with
  | some cause, _ => .error ⟨cause, path⟩
  | none, none => .error ⟨.alreadyExists, path⟩
  | none, some name =>
    match fs.findDirectory path.parent with
    | .error cause => .error ⟨cause, path⟩
    | .ok directory =>
      if name = ".." then .error ⟨.alreadyExists, path⟩
      else if longestName < name.utf8ByteSize then .error ⟨.nameTooLong, path⟩
      else match (fs.root.at? directory).bind (·.child? name) with
        | some _ => .error ⟨.alreadyExists, path⟩
        | none => .ok { fs with root := fs.root.put (directory ++ [name]) (.directory []) }

/-- Make a symbolic link with the given target, which need not exist. -/
def makeLink (fs : FileSystem) (path : Path) (target : String) : Except Failure FileSystem :=
  match fs.findDirectory path.parent with
  | .error cause => .error ⟨cause, path⟩
  | .ok directory =>
    match (fs.root.at? directory).bind (·.child? path.name) with
    | some _ => .error ⟨.alreadyExists, path⟩
    | none => .ok { fs with root := fs.root.put (directory ++ [path.name]) (.link target) }

/-- What remains of a failure to make a directory: nothing, when there is one. -/
def objection? (fs : FileSystem) (failure : Failure) : Option Failure :=
  if failure.cause = .nullCharacter then some failure
  else match fs.isDirectory failure.path with
    | .error other => some other
    | .ok true => none
    | .ok false => some failure

/-- Make the directory with the first `depth` components of a path, and the missing ones that
lead to it. The components before the last are only looked at when one of them is missing. The
directories that were made before a failure stay. -/
def makeDirectoriesTo (fs : FileSystem) (path : Path) : Nat → FileSystem × Option Failure
  | 0 =>
    match fs.makeDirectory ⟨path.anchor, []⟩ with
    | .ok fs => (fs, none)
    | .error failure => (fs, fs.objection? failure)
  | depth + 1 =>
    let target : Path := ⟨path.anchor, path.parts.take (depth + 1)⟩
    match fs.makeDirectory target with
    | .ok fs => (fs, none)
    | .error failure =>
      if failure.cause = .notFound then
        match makeDirectoriesTo fs path depth with
        | (fs, some failure) => (fs, some failure)
        | (fs, none) =>
          match fs.makeDirectory target with
          | .ok fs => (fs, none)
          | .error failure =>
            (fs, if failure.cause = .notFound then some failure else fs.objection? failure)
      else (fs, fs.objection? failure)

/-- Make a directory and the missing ones that lead to it. An existing directory is as good. -/
def makeDirectories (fs : FileSystem) (path : Path) : FileSystem × Option Failure :=
  fs.makeDirectoriesTo path path.parts.length

/-- All that lies below the directory that a path denotes, by the path that leads there; links
to directories are not entered. -/
def entriesBelow (fs : FileSystem) (path : Path) : List (Path × Entry) :=
  match fs.findDirectory path with
  | .error _ => []
  | .ok location =>
    match fs.root.at? location with
    | none => []
    | some directory =>
      directory.descendants.map fun (names, entry) => (path.below names, entry)

/-- The directories and files below the current directory that are new, or whose bytes are new,
in the order of their written paths. -/
def changesSince (fs before : FileSystem) : List (Path × Entry) :=
  let isNew (path : Path) (entry : Entry) : Bool :=
    match entry, before.root.at? (before.here ++ path.parts) with
    | .directory _, some (.directory _) => false
    | .directory _, _ => true
    | .file content, some (.file old) => content != old
    | .file _, _ => true
    | .link _, _ => false
  ((fs.entriesBelow Path.current).filter fun (path, entry) => isNew path entry).mergeSort
    fun a b => decide (a.1.text ≤ b.1.text)

end SyntaxSurvey.FileSystem
