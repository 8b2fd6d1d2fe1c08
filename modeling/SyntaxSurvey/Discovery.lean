import SyntaxSurvey.FileSystem.Operations
import SyntaxSurvey.Trouble

/-! Finding the sources of a survey: the files below a root whose names have a given ending, in the
order of their paths. -/

namespace SyntaxSurvey.Discovery

def defaultSuffix : String := ".py"

def onlyFiles (files : FileSystem) : List Path → Except Trouble (List Path)
  | [] => .ok []
  | path :: paths =>
    match files.isFile path, onlyFiles files paths with
    | .error failure, _ => .error (.file failure)
    | .ok _, .error trouble => .error trouble
    | .ok true, .ok found => .ok (path :: found)
    | .ok false, .ok found => .ok found

/-- Whether a path may be that of a source. -/
def hasSuffix (suffix : String) (path : Path) : Bool :=
  suffix.toList.isSuffixOf path.name.toList

/-- The sources below a root. Links to files are sources, but links to directories are not
entered. -/
def sources (files : FileSystem) (root : Path) (suffix : String) : Except Trouble (List Path) :=
  match files.pathExists root, files.isDirectory root with
  | .error failure, _ | _, .error failure => .error (.file failure)
  | .ok false, _ => .error (.rootMissing root)
  | .ok true, .ok false => .error (.rootNotDirectory root)
  | .ok true, .ok true =>
    (onlyFiles files ((files.entriesBelow root).map Prod.fst)).map fun paths =>
      (paths.filter (hasSuffix suffix)).mergeSort Path.notAfter

end SyntaxSurvey.Discovery
