import SyntaxSurvey.Fault
import SyntaxSurvey.FileSystem.Lookup
import SyntaxSurvey.Json.Value
import SyntaxSurvey.Number.Quantity
import SyntaxSurvey.Renderer

/-! Troubles: all that can keep a step of a survey from being done, with the name of the kind and
the wording under which it is reported. -/

namespace SyntaxSurvey

open Number (Quantity)

inductive Trouble.Need where
  /-- A scale is compared with zero. -/
  | scale
  /-- The names of files are compared with a suffix. -/
  | suffix
  /-- The directory of a file is made. -/
  | path
  deriving DecidableEq, Repr

inductive Trouble where
  /-- An operation on files failed. -/
  | file (failure : FileSystem.Failure)
  /-- There is nothing at the root of the survey. -/
  | rootMissing (root : Path)
  /-- The root of the survey is not a directory. -/
  | rootNotDirectory (root : Path)
  /-- The bytes of a file are not a text. -/
  | undecodable (defect : Text.Utf8.Defect)
  /-- A text has code points without bytes, or an integer has too many digits. -/
  | unwritable (obstacle : Json.Obstacle)
  /-- A fault left the parser. -/
  | parser (fault : Fault)
  /-- The resolution of an image is not a number. -/
  | unbounded (reason : Quantity.Unbounded)
  /-- There is no image of a graph. -/
  | renderer (failure : Renderer.Failure)
  /-- A recorded error has no line that could be shown. -/
  | blankError
  /-- A flag stands there without the value that is needed. -/
  | valueMissing (need : Trouble.Need)
  deriving DecidableEq, Repr

/-- The name of the kind of a reason for which an operation on files failed. -/
def FileSystem.Cause.kind : FileSystem.Cause → String
  | .notFound => "FileNotFoundError"
  | .alreadyExists => "FileExistsError"
  | .notDirectory => "NotADirectoryError"
  | .isDirectory => "IsADirectoryError"
  | .nameTooLong | .tooManyLinks => "OSError"
  | .nullCharacter => "ValueError"

namespace Trouble

def kind : Trouble → String
  | .file failure => failure.cause.kind
  | .rootMissing _ => "FileNotFoundError"
  | .rootNotDirectory _ => "NotADirectoryError"
  | .undecodable _ => "UnicodeDecodeError"
  | .unwritable (.half _) => "UnicodeEncodeError"
  | .unwritable (.digits _) => "ValueError"
  | .parser fault => fault.kind
  | .unbounded .infinite => "OverflowError"
  | .unbounded .notANumber => "ValueError"
  | .renderer .missing => "ExecutableNotFound"
  | .renderer (.stopped ..) => "CalledProcessError"
  | .blankError => "IndexError"
  | .valueMissing .scale | .valueMissing .suffix => "TypeError"
  | .valueMissing .path => "AttributeError"

/-- The name of the kind with the name of the part that it belongs to, if it is not a general
one. -/
def fullKind (trouble : Trouble) : String :=
  match trouble with
  | .renderer _ => "graphviz.backend.execute." ++ trouble.kind
  | _ => trouble.kind

def message : Trouble → String
  | .file failure => failure.message
  | .rootMissing root => s!"Repository root not found: {root.text}"
  | .rootNotDirectory root => s!"Repository root is not a directory: {root.text}"
  | .undecodable defect => defect.message
  | .unwritable obstacle => obstacle.message
  | .parser fault => fault.message
  | .unbounded .infinite => "cannot convert float infinity to integer"
  | .unbounded .notANumber => "cannot convert float NaN to integer"
  | .renderer failure => failure.message
  | .blankError => "list index out of range"
  | .valueMissing .scale => "'<=' not supported between instances of 'list' and 'int'"
  | .valueMissing .suffix => "endswith first arg must be str or a tuple of str, not list"
  | .valueMissing .path => "'list' object has no attribute 'parent'"

def line (trouble : Trouble) : String :=
  if trouble.message = "" then trouble.fullKind else trouble.fullKind ++ ": " ++ trouble.message

/-- Whether a trouble comes from the file system; a survey that cannot begin because of one ends
in an orderly way. -/
def isOfFiles : Trouble → Bool
  | .file failure => failure.cause != .nullCharacter
  | .rootMissing _ | .rootNotDirectory _ => true
  | _ => false

end Trouble

end SyntaxSurvey
