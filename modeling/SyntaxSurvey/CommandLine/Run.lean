import SyntaxSurvey.CommandLine.Arguments
import SyntaxSurvey.Report

/-! Carrying out a command line: the survey that it asks for, its log, the report and the status
with which the program ends. -/

namespace SyntaxSurvey.CommandLine

/-- What is needed from outside: the setting of the survey, the time at which the report is made,
and how long everything takes. -/
structure Situation extends Setting where
  instant : String
  whole : Duration

inductive Exit where
  /-- The program has done what it can, and ends with a status. -/
  | done (status : Nat)
  /-- The program is stopped. -/
  | stopped (stop : Stop)
  deriving DecidableEq, Repr

/-- A trouble that nothing is prepared for ends the program. -/
def Exit.broken (trouble : Trouble) : Exit :=
  .stopped (.broken trouble)

structure Ending where
  exit : Exit
  log : Log
  files : FileSystem

/-- Tell of a summary, and write the report if one is asked for. Counts and places are far below any
limit of digits, so that the report is written without one. -/
def conclude (situation : Situation) (a : Arguments) (summary : Summary) (log : Log)
    (files : FileSystem) : Ending :=
  let (account, trouble) := summary.account a.plan.imageDirectory?
  let log := log ++ account
  match trouble with
  | some trouble => ⟨.broken trouble, log, files⟩
  | none =>
    match a.options.report with
    | .nothing => ⟨.done 0, log ++ [.finished situation.whole], files⟩
    | .emptied => ⟨.broken (.valueMissing .path), log, files⟩
    | .value path =>
      let report : Report := ⟨a.root.text, a.options.mode.name, situation.instant, summary⟩
      match (report.map Text.Raw.ofString).save files path none with
      | (files, some trouble) => ⟨.broken trouble, log, files⟩
      | (files, none) =>
        ⟨.done 0, log ++ [.reported path, .finished situation.whole], files⟩

def opening (a : Arguments) : Log :=
  let images : Log := match a.plan.imageDirectory? with
    | some directory => [.imagesGoTo directory]
    | none => []
  .started a.root a.options.mode.name :: images ++ [.ruler]

/-- Whether there is a file whose name would have to be compared with a suffix that was taken
away. -/
def needsSuffix (a : Arguments) (files : FileSystem) : Bool :=
  match a.options.suffix, Discovery.sources files a.root "" with
  | .emptied, .ok (_ :: _) => true
  | _, _ => false

/-- Carry out the survey and all that follows it. -/
def perform (situation : Situation) (a : Arguments) (files : FileSystem) : Ending :=
  if needsSuffix a files then ⟨.broken (.valueMissing .suffix), opening a, files⟩
  else
    let ending := Survey.run situation.toSetting a.plan files
    let log := opening a ++ ending.log
    match ending.result with
    | .ok summary => conclude situation a summary log ending.files
    | .error trouble =>
      if trouble.isOfFiles then ⟨.done 1, log ++ [.rootFailed trouble], ending.files⟩
      else ⟨.broken trouble, log, ending.files⟩

/-- Make the log file if there is none, and the directories that lead to it. -/
def openLog (a : Arguments) (files : FileSystem) : FileSystem × Option Trouble :=
  match a.options.logFile with
  | .nothing => (files, none)
  | .emptied => (files, some (.valueMissing .path))
  | .value path =>
    match files.makeDirectories path.parent with
    | (files, some failure) => (files, some (.file failure))
    | (files, none) =>
      match files.append (files.absolute path) [] with
      | .error failure => (files, some (.file failure))
      | .ok files => (files, none)

def closeLog (a : Arguments) (log : Log) (files : FileSystem) : FileSystem :=
  match a.options.logFile.value? with
  | none => files
  | some path =>
    let lines := log.flatMap fun event => event.line.toList
    (files.append (files.absolute path) (Text.Utf8.encode lines)).toOption.getD files

def run (situation : Situation) (texts : List String) (files : FileSystem) : Ending :=
  match Arguments.read texts with
  | .error stop => ⟨.stopped stop, [], files⟩
  | .ok a =>
    match openLog a files with
    | (files, some trouble) => ⟨.broken trouble, [], files⟩
    | (files, none) =>
      let ending := perform situation a files
      let log := ending.log.visible a.options.verbose
      ⟨ending.exit, log, closeLog a log ending.files⟩

end SyntaxSurvey.CommandLine
