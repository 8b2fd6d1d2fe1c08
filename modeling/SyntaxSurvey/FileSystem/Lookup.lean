import SyntaxSurvey.FileSystem.Entry
import SyntaxSurvey.Path

/-! Finding what a path denotes. Names are followed from the directory that the path starts at;
a link on the way is replaced by its target, at most forty times in one look-up. -/

namespace SyntaxSurvey

/-- A directory tree and the current directory in it. -/
structure FileSystem where
  root : FileSystem.Entry
  here : FileSystem.Location
  deriving Repr, Inhabited

namespace FileSystem

/-- Why an operation on files failed. These are the reasons that the shape of a tree and the wording of
a path can give. That something is not permitted, that the disk is full and that it fails are not
among them. -/
inductive Cause where
  | notFound
  | alreadyExists
  | notDirectory
  | isDirectory
  | nameTooLong
  | tooManyLinks
  | nullCharacter
  deriving DecidableEq, Repr

/-- A failed operation: the reason and the path it was about. -/
structure Failure where
  cause : Cause
  path : Path
  deriving DecidableEq, Repr

/-- The number that the system gives a reason; a null character never reaches the system. -/
def Cause.number? : Cause → Option Nat
  | .notFound => some 2
  | .alreadyExists => some 17
  | .notDirectory => some 20
  | .isDirectory => some 21
  | .nameTooLong => some 36
  | .tooManyLinks => some 40
  | .nullCharacter => none

def Cause.text : Cause → String
  | .notFound => "No such file or directory"
  | .alreadyExists => "File exists"
  | .notDirectory => "Not a directory"
  | .isDirectory => "Is a directory"
  | .nameTooLong => "File name too long"
  | .tooManyLinks => "Too many levels of symbolic links"
  | .nullCharacter => "embedded null byte"

def Failure.message (f : Failure) : String :=
  match f.cause.number? with
  | some number => s!"[Errno {number}] {f.cause.text}: {Text.quoted f.path.text}"
  | none => f.cause.text

/-- What a look-up finds: an entry and where it is, or a directory that has no entry of that
name. -/
inductive Found where
  | present (location : Location) (entry : Entry)
  | absent (directory : Location) (name : String)
  deriving Repr

def longestName : Nat := 255

def longestPath : Nat := 4095

def mostLinks : Nat := 40

/-- What a look-up is for. -/
inductive Aim where
  /-- To see what is there. -/
  | seeing
  /-- To write a file, and to make it if there is none. -/
  | making
  deriving DecidableEq, Repr

/-- The component that stands for a separator at the end of a link's target: what is before it
has to be a directory. -/
def directoryMark : String := ""

def targetParts (target : String) : List String :=
  let pieces := (Path.splitSlash target.toList).map String.ofList
  let parts := pieces.filter (· != "")
  if pieces.getLast? = some "" then parts ++ [directoryMark] else parts

/-- Follow components from a location. What happens at a link, with the components that remain
after it, is given. A name that has to be that of a directory is never that of a file to write,
whatever there is of that name. -/
def walkWith (root : Entry) (aim : Aim)
    (onLink : Location → String → List String → Except Cause Found) :
    Location → List String → Except Cause Found
  | location, [] =>
    match root.at? location with
    | some entry => .ok (.present location entry)
    | none => .error .notFound
  | location, part :: rest =>
    if part = "." ∨ part = directoryMark then walkWith root aim onLink location rest
    else if part = ".." then walkWith root aim onLink location.dropLast rest
    else if aim = .making ∧ rest = [directoryMark] then .error .isDirectory
    else if longestName < part.utf8ByteSize then .error .nameTooLong
    else match (root.at? location).bind (·.child? part) with
      | none => if rest.isEmpty then .ok (.absent location part) else .error .notFound
      | some (.directory _) => walkWith root aim onLink (location ++ [part]) rest
      | some (.file content) =>
        if rest.isEmpty then .ok (.present (location ++ [part]) (.file content))
        else .error .notDirectory
      | some (.link target) => onLink location target rest

/-- Follow components from a location and at most so many links. -/
def walk (root : Entry) (aim : Aim) : Nat → Location → List String → Except Cause Found
  | 0 => walkWith root aim fun _ _ _ => .error .tooManyLinks
  | links + 1 => walkWith root aim fun location target rest =>
    if target = "" then .error .notFound
    else walk root aim links (if target.startsWith "/" then [] else location)
      (targetParts target ++ rest)

def start (fs : FileSystem) (path : Path) : Location :=
  match path.anchor with
  | .here => fs.here
  | _ => []

/-- Names followed from a location as they are written, where a component that names the parent
directory takes the one before it away. -/
def lexicalPlace (location : Location) (parts : List String) : Location :=
  parts.foldl (fun place part => if part = ".." then place.dropLast else place ++ [part]) location

/-- The path from the root that is meant by a path, as far as its wording tells. -/
def absolute (fs : FileSystem) (path : Path) : Path :=
  ⟨if path.anchor = .here then .root else path.anchor,
    lexicalPlace (fs.start path) path.parts⟩

/-- A path that no look-up is made for. -/
def refuse? (path : Path) : Option Cause :=
  if path.text.toList.contains '\x00' then some .nullCharacter
  else if longestPath < path.text.utf8ByteSize then some .nameTooLong
  else none

/-- What a path denotes for an aim, links followed. -/
def findFor (fs : FileSystem) (aim : Aim) (path : Path) : Except Cause Found :=
  match refuse? path with
  | some cause => .error cause
  | none => walk fs.root aim mostLinks (fs.start path) path.parts

def find (fs : FileSystem) (path : Path) : Except Cause Found :=
  fs.findFor .seeing path

/-- The location and entries of the directory that a path denotes. -/
def findDirectory (fs : FileSystem) (path : Path) : Except Cause Location :=
  match fs.find path with
  | .ok (.present location (.directory _)) => .ok location
  | .ok (.present _ _) => .error .notDirectory
  | .ok (.absent _ _) => .error .notFound
  | .error cause => .error cause

/-- A question about an entry. The answer is no where there is none, but a name that is too long
is a failure. -/
def ask (fs : FileSystem) (path : Path) (question : Entry → Bool) : Except Failure Bool :=
  match fs.find path with
  | .ok (.present _ entry) => .ok (question entry)
  | .ok (.absent _ _) => .ok false
  | .error .nameTooLong => .error ⟨.nameTooLong, path⟩
  | .error _ => .ok false

def pathExists (fs : FileSystem) (path : Path) : Except Failure Bool :=
  fs.ask path fun _ => true

def isDirectory (fs : FileSystem) (path : Path) : Except Failure Bool :=
  fs.ask path fun
    | .directory _ => true
    | _ => false

def isFile (fs : FileSystem) (path : Path) : Except Failure Bool :=
  fs.ask path fun
    | .file _ => true
    | _ => false

end FileSystem

end SyntaxSurvey
