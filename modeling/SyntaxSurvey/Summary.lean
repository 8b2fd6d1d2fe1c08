import SyntaxSurvey.Log
import SyntaxSurvey.Record

/-! Summaries: the records of a survey with their counts, and how they are told in the log. -/

namespace SyntaxSurvey

/-- The records of a survey so far, in order, and how many of them succeeded and failed. -/
structure Summary (τ : Type := String) where
  total : Nat
  succeeded : Nat
  failed : Nat
  records : List (Record τ)
  deriving DecidableEq, Repr, Inhabited

namespace Summary

def empty : Summary :=
  ⟨0, 0, 0, []⟩

def add (s : Summary) (record : Record) : Summary where
  total := s.total + 1
  succeeded := if record.succeeded then s.succeeded + 1 else s.succeeded
  failed := if record.succeeded then s.failed else s.failed + 1
  records := s.records ++ [record]

def failures (s : Summary) : List Record :=
  s.records.filter fun record => !record.succeeded

/-- Take the image away from the record at an index. -/
def dropImage (s : Summary) (index : Nat) : Summary :=
  { s with records := s.records.modify index fun record => { record with imagePath := none } }

def map {τ σ : Type} (f : τ → σ) (s : Summary τ) : Summary σ :=
  ⟨s.total, s.succeeded, s.failed, s.records.map (Record.map f)⟩

/-- The parts of a summary as named values. -/
def fields {τ : Type} (s : Summary τ) : List (String × Json τ) :=
  [("total", .ofInt s.total),
    ("succeeded", .ofInt s.succeeded),
    ("failed", .ofInt s.failed),
    ("files", .array (s.records.map Record.toJson))]

def longestReason : Nat := 200

/-- Why a source failed, as far as the log shows it: the last line of its error, or the number of
its faults. An error that is blank has no such line. -/
def reasonFor? (record : Record) : Option String :=
  let reason := match record.error? with
    | some error => Text.lastLine? error
    | none => some s!"{record.diagnostics.length} syntax errors"
  reason.map fun reason => String.ofList (reason.toList.take longestReason)

/-- The events that tell of failed sources. They end before the first one that has no reason. -/
def failureLog : List Record → Log × Option Trouble
  | [] => ([], none)
  | record :: records =>
    match reasonFor? record with
    | none => ([], some .blankError)
    | some reason =>
      let (log, trouble) := failureLog records
      (.failure record.filepath reason :: log, trouble)

/-- The events that tell of a summary, and the trouble that cut them short. -/
def account (s : Summary) (directory : Option Path) : Log × Option Trouble :=
  let totals : Log := [.ruler, .summaryTitle, .ruler, .total s.total, .totalSucceeded s.succeeded,
    .totalFailed s.failed]
  let images : Log := match directory with
    | some directory => [.imagesSavedTo directory]
    | none => []
  if s.failures.isEmpty then (totals ++ images, none)
  else
    let (log, trouble) := failureLog s.failures
    (totals ++ images ++ .failuresTitle :: log, trouble)

end Summary

end SyntaxSurvey
