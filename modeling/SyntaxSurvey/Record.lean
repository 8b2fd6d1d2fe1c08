import SyntaxSurvey.Diagnostic
import SyntaxSurvey.Json.Value
import SyntaxSurvey.Trouble

/-! Records: what a survey keeps of one source. -/

namespace SyntaxSurvey

open Number (Binary64 Quantity)

/-- What is known of one source: its name and path as text, how it went, its diagnostics, the
error that stopped it, where its image is, and the seconds that parsing took. -/
structure Record (τ : Type := String) where
  filename : τ
  filepath : τ
  status : τ
  diagnostics : List (Diagnostic τ)
  error : Option τ
  imagePath : Option τ
  parseTime : Quantity
  deriving DecidableEq, Repr, Inhabited

namespace Record

def pending : String := "pending"

def success : String := "success"

def failure : String := "failure"

def fresh (filename filepath : String) : Record :=
  ⟨filename, filepath, pending, [], none, none, .real (Binary64.zero false)⟩

def succeeded (r : Record) : Bool :=
  r.status == success

/-- The record of a source that a trouble has stopped. -/
def stoppedBy (r : Record) (trouble : Trouble) : Record :=
  { r with status := failure, error := some trouble.line }

/-- The error of a record, if there is one and it is not empty. -/
def error? (r : Record) : Option String :=
  r.error.filter (· != "")

def map {τ σ : Type} (f : τ → σ) (r : Record τ) : Record σ :=
  ⟨f r.filename, f r.filepath, f r.status, r.diagnostics.map (Diagnostic.map f), r.error.map f,
    r.imagePath.map f, r.parseTime⟩

def toJson {τ : Type} (r : Record τ) : Json τ :=
  .object [
    ("filename", .string r.filename),
    ("filepath", .string r.filepath),
    ("status", .string r.status),
    ("diagnostics", .array (r.diagnostics.map Diagnostic.toJson)),
    ("error", .ofText? r.error),
    ("image_path", .ofText? r.imagePath),
    ("parse_time_s", .number r.parseTime)]

end Record

end SyntaxSurvey
