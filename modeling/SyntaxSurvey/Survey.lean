import SyntaxSurvey.Discovery
import SyntaxSurvey.Image
import SyntaxSurvey.Reading
import SyntaxSurvey.Summary

/-! Surveys: every source below a root is read in turn, and in one of the modes its tree is drawn.
A failure of one source never stops the others; only a root that cannot be enumerated, or a
directory for images that cannot be made, does. -/

namespace SyntaxSurvey

open Number (Quantity)

inductive Mode where
  | parse
  | images
  deriving DecidableEq, Repr, Inhabited

def Mode.name : Mode → String
  | .parse => "parse"
  | .images => "images"

/-- What a survey needs from outside: the grammar, the renderer, and how long each source takes
to be parsed and drawn. -/
structure Setting where
  table : Grammar.Table
  renderer : Renderer
  parsing : Path → Duration
  drawing : Path → Duration

/-- What is to be surveyed and how. -/
structure Plan where
  root : Path
  mode : Mode
  suffix : String
  directory : Option Path
  scale : Quantity

namespace Plan

def ofRoot (root : Path) : Plan :=
  ⟨root, .parse, Discovery.defaultSuffix, none, .real Image.defaultScale⟩

/-- The directory for images, in the mode that has them. -/
def imageDirectory? (plan : Plan) : Option Path :=
  match plan.mode with
  | .parse => none
  | .images => some (plan.directory.getD (Image.directoryFor plan.root))

end Plan

/-- A survey in progress: the summary so far, the record whose image each file name stands for, by
its index, the log and the directory tree. -/
structure Survey where
  summary : Summary
  owners : List (String × Nat)
  log : Log
  files : FileSystem

namespace Survey

def begin (log : Log) (files : FileSystem) : Survey :=
  ⟨.empty, [], log, files⟩

/-- Take an image from the record that it belonged to, because a source has overwritten it. -/
def disown (s : Survey) (image : String) (path : Path) : Survey :=
  match s.owners.lookup image with
  | none => s
  | some index =>
    let previous := (s.summary.records[index]?.map Record.filepath).getD ""
    { s with
      summary := s.summary.dropImage index
      log := s.log ++ [.overwritten image path previous] }

/-- Give an image to the record that is about to be added. -/
def own (s : Survey) (image : String) : Survey :=
  { s with owners := (image, s.summary.records.length) :: s.owners }

/-- The event that tells how a source went. -/
def outcome (record : Record) (took : Duration) : Log.Event :=
  if record.succeeded then .succeeded took
  else if record.error?.isSome then .failedByError
  else .failedByFaults record.diagnostics.length

def close (s : Survey) (record : Record) (took : Duration) : Survey :=
  { s with summary := s.summary.add record, log := s.log ++ [outcome record took] }

/-- Draw the tree of a reading, and add its record. -/
def illustrate (setting : Setting) (plan : Plan) (directory : Path) (s : Survey) (path : Path)
    (reading : Reading) : Survey :=
  let saving := Image.save setting.renderer s.files reading.record reading.tree directory
    plan.suffix plan.scale (setting.drawing path)
  let s := { s with log := s.log ++ saving.log, files := saving.files }
  let s := match saving.path with
    | none => s
    | some image => (s.disown image.name path).own image.name
  s.close saving.record (setting.parsing path)

def visit (setting : Setting) (plan : Plan) (s : Survey) (path : Path) : Survey :=
  let reading := Reading.ofFile setting.table s.files path (setting.parsing path)
  let index := s.summary.records.length + 1
  let s := { s with log := s.log ++ .processing index path :: reading.log }
  match plan.imageDirectory? with
  | none => s.close reading.record (setting.parsing path)
  | some directory => illustrate setting plan directory s path reading

/-- How a survey ended: with a summary, or with the trouble because of which it could not begin. -/
structure Ending where
  result : Except Trouble Summary
  log : Log
  files : FileSystem

def visitAll (setting : Setting) (plan : Plan) (s : Survey) (paths : List Path) : Survey :=
  paths.foldl (visit setting plan) s

def complete (setting : Setting) (plan : Plan) (log : Log) (files : FileSystem)
    (paths : List Path) : Ending :=
  let s := (begin log files).visitAll setting plan paths
  ⟨.ok s.summary, s.log, s.files⟩

def run (setting : Setting) (plan : Plan) (files : FileSystem) : Ending :=
  match Discovery.sources files plan.root plan.suffix with
  | .error trouble => ⟨.error trouble, [], files⟩
  | .ok paths =>
    let log : Log := [.enumerated paths.length plan.root,
      .found paths.length plan.suffix plan.root]
    match plan.imageDirectory? with
    | none => complete setting plan log files paths
    | some directory =>
      match files.makeDirectories directory with
      | (files, some failure) => ⟨.error (.file failure), log, files⟩
      | (files, none) => complete setting plan log files paths

end Survey

end SyntaxSurvey
