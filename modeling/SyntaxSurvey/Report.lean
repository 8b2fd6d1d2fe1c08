import SyntaxSurvey.FileSystem.Operations
import SyntaxSurvey.Summary

/-! Reports: a summary as a JSON document, with the root and the mode of the survey and the time
at which the report was made. -/

namespace SyntaxSurvey

open Number (Quantity)
open Text (Raw)

/-- What a report tells. The root stands in it as a text. -/
structure Report (τ : Type := String) where
  root : τ
  mode : τ
  instant : τ
  summary : Summary τ

namespace Report

variable {τ σ : Type}

def map (f : τ → σ) (r : Report τ) : Report σ :=
  ⟨f r.root, f r.mode, f r.instant, r.summary.map f⟩

def toJson (r : Report τ) : Json τ :=
  .object (("root", .string r.root) :: ("mode", .string r.mode)
    :: ("generated_at", .string r.instant) :: r.summary.fields)

def text (r : Report) : String :=
  r.toJson.text

/-- Write a report to a file, and make the directories that lead to it. The report is handed to the
file piece by piece, so that the file is left with the pieces before the first one that cannot be
encoded. -/
def save (r : Report Raw) (files : FileSystem) (path : Path)
    (limit : Option Nat := some Quantity.mostDigits) : FileSystem × Option Trouble :=
  match files.makeDirectories path.parent with
  | (files, some failure) => (files, some (.file failure))
  | (files, none) =>
    let encoded := Json.encodePieces limit (Json.pieces 0 r.toJson)
    match files.write path encoded.1 with
    | .error failure => (files, some (.file failure))
    | .ok files => (files, encoded.2.map .unwritable)

end Report

end SyntaxSurvey
