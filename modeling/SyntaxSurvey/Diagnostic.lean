import SyntaxSurvey.Fault
import SyntaxSurvey.Json.Value

/-! Diagnostics: faults as they are recorded. -/

namespace SyntaxSurvey

/-- A recorded fault: where it is, its description and the name of its kind. Line zero means that
the place is not known. -/
structure Diagnostic (τ : Type := String) where
  line : Int
  column : Int
  message : τ
  kind : τ
  deriving DecidableEq, Repr, Inhabited

namespace Diagnostic

def defaultKind : String := "SyntaxError"

/-- The diagnostic of that wording, of the general kind unless another one is told. -/
def new (line column : Int) (message : String) (kind : String := defaultKind) : Diagnostic :=
  ⟨line, column, message, kind⟩

def ofFault (f : Fault) : Diagnostic :=
  new (Spot.natural f.spot.line) (Spot.natural f.spot.column) f.description f.kind

def text (d : Diagnostic) : String :=
  s!"line {d.line}:{d.column} - {d.message}"

def map {τ σ : Type} (f : τ → σ) (d : Diagnostic τ) : Diagnostic σ :=
  ⟨d.line, d.column, f d.message, f d.kind⟩

def toJson {τ : Type} (d : Diagnostic τ) : Json τ :=
  .object [
    ("line", .ofInt d.line),
    ("column", .ofInt d.column),
    ("message", .string d.message),
    ("kind", .string d.kind)]

end Diagnostic

end SyntaxSurvey
