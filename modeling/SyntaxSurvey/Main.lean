import SyntaxSurvey.CommandLine.Run
import SyntaxSurvey.Disk
import SyntaxSurvey.Grammar.Python
import Std.Time.Format

/-! The program. It takes in what the run can look at, evaluates the run as one value, and shows
and stores what came of it. No time passes within a value, so the log tells of none; and no
renderer is at hand. -/

namespace SyntaxSurvey.Program

/-- The paths that a run may look at or change. -/
def interests (a : CommandLine.Arguments) : List Disk.Interest :=
  let images := match a.plan.imageDirectory? with
    | some directory => [.walked directory Image.suffix]
    | none => []
  let single := [a.options.report, a.options.logFile].filterMap fun given =>
    given.value?.map Disk.Interest.alone
  .walked a.root a.suffix :: images ++ single

/-- The paths of interest of a command line. -/
def interestsOf (texts : List String) : List Disk.Interest :=
  match CommandLine.Arguments.read texts with
  | .ok a => interests a
  | .error _ => []

/-- What surrounds a run at this moment. -/
def situation : IO CommandLine.Situation := do
  let now := Std.Time.DateTime.ofTimestamp (← Std.Time.Timestamp.now) .UTC
  return {
    table := Grammar.Python.table .file
    renderer := fun _ => .error .missing
    parsing := fun _ => ⟨0⟩
    drawing := fun _ => ⟨0⟩
    instant := now.toISO8601String
    whole := ⟨0⟩ }

def conclude (exit : CommandLine.Exit) : IO UInt32 := do
  match exit with
  | .done status => return status.toUInt32
  | .stopped stop =>
    IO.print stop.output
    IO.eprint stop.complaint
    return stop.status.toUInt32

end SyntaxSurvey.Program

open SyntaxSurvey in
def main (texts : List String) : IO UInt32 := do
  let files ← Disk.load (Program.interestsOf texts)
  let ending := CommandLine.run (← Program.situation) texts files
  for event in ending.log do
    IO.eprint event.line
  Disk.store files ending.files
  Program.conclude ending.exit
