import SyntaxSurvey.Diagnostic
import SyntaxSurvey.Duration
import SyntaxSurvey.Trouble

/-! The log: the events of a survey in the order in which they arose. Each kind of event has its
level, the channel of the part that it comes from, and its wording. -/

namespace SyntaxSurvey

inductive Log.Level where
  | debug
  | info
  | warning
  | error
  deriving DecidableEq, Repr

def Log.Level.name : Log.Level → String
  | .debug => "DEBUG"
  | .info => "INFO"
  | .warning => "WARNING"
  | .error => "ERROR"

inductive Log.Channel where
  | discovery
  | parsing
  | rendering
  | survey
  deriving DecidableEq, Repr

inductive Log.Event where
  /-- So many sources were found. -/
  | enumerated (count : Nat) (root : Path)
  /-- A source was read. -/
  | read (path : Path) (characters : Nat)
  /-- A fault of a source was recorded. -/
  | diagnosed (source : String) (diagnostic : Diagnostic)
  /-- A source was given up because of a trouble. -/
  | interrupted (path : Path) (trouble : Trouble)
  /-- The trouble because of which a source was given up. -/
  | interruption (trouble : Trouble)
  /-- There is no tree to draw. -/
  | treeMissing (source : String)
  /-- A tree is drawn although its source has faults. -/
  | treeIncomplete (source : String)
  /-- A tree could not be drawn. -/
  | drawingFailed (source : String) (trouble : Trouble)
  /-- The trouble because of which a tree could not be drawn. -/
  | drawingFailure (trouble : Trouble)
  /-- A tree was drawn. -/
  | drawn (image : String) (took : Duration)
  /-- A survey begins. -/
  | started (root : Path) (mode : String)
  /-- Where images go. -/
  | imagesGoTo (directory : Path)
  /-- So many sources with that suffix are about to be parsed. -/
  | found (count : Nat) (suffix : String) (root : Path)
  /-- The turn of a source has come. -/
  | processing (index : Nat) (path : Path)
  /-- An image took the place of that of another source. -/
  | overwritten (image : String) (path : Path) (previous : String)
  /-- A source was parsed without a fault. -/
  | succeeded (took : Duration)
  /-- A source was given up, or its tree could not be drawn. -/
  | failedByError
  /-- A source has faults. -/
  | failedByFaults (count : Nat)
  /-- The root cannot be surveyed. -/
  | rootFailed (trouble : Trouble)
  /-- A line that sets parts of the log apart. -/
  | ruler
  /-- The title of the totals. -/
  | summaryTitle
  /-- The number of sources. -/
  | total (count : Nat)
  /-- The number of sources without faults. -/
  | totalSucceeded (count : Nat)
  /-- The number of sources that failed. -/
  | totalFailed (count : Nat)
  /-- Where the images went. -/
  | imagesSavedTo (directory : Path)
  /-- The title of the list of sources that failed. -/
  | failuresTitle
  /-- A source that failed and why. -/
  | failure (source reason : String)
  /-- The report was written. -/
  | reported (path : Path)
  /-- All is done. -/
  | finished (took : Duration)
  deriving DecidableEq, Repr

namespace Log.Event

def level : Event → Level
  | .enumerated .. | .read .. | .interruption _ | .drawingFailure _ => .debug
  | .diagnosed .. | .interrupted .. | .drawingFailed .. | .rootFailed _ => .error
  | .treeMissing _ | .treeIncomplete _ | .overwritten .. | .failedByError | .failedByFaults _
  | .failuresTitle | .failure .. => .warning
  | .drawn .. | .started .. | .imagesGoTo _ | .found .. | .processing .. | .succeeded _ | .ruler
  | .summaryTitle | .total _ | .totalSucceeded _ | .totalFailed _ | .imagesSavedTo _
  | .reported _ | .finished _ => .info

def channel : Event → Channel
  | .enumerated .. => .discovery
  | .read .. | .diagnosed .. | .interrupted .. | .interruption _ => .parsing
  | .treeMissing _ | .treeIncomplete _ | .drawingFailed .. | .drawingFailure _ | .drawn .. =>
    .rendering
  | _ => .survey

/-- The wording of an event. How a length of time is written, with so many decimal places, is
given. -/
def textWith (write : Nat → Duration → String) : Event → String
  | .enumerated count root => s!"discover_sources: {count} matching files under {root.text}"
  | .read path characters => s!"parse_single_file: {path.text} ({characters} chars)"
  | .diagnosed source diagnostic =>
    let place := if diagnostic.line = 0 then "(position unknown)"
      else s!"at line {diagnostic.line}:{diagnostic.column}"
    s!"ERROR {place} in {source} - {diagnostic.message}"
  | .interrupted path trouble => s!"EXCEPTION: {path.text}: {trouble.message}"
  | .interruption trouble => s!"parse_single_file: traceback\n{trouble.line}"
  | .treeMissing source => s!"save_tree_image: no parse tree for {source}, skipping image"
  | .treeIncomplete source => s!"File has parse errors, tree may be incomplete: {source}"
  | .drawingFailed source trouble => s!"Error saving tree: {source}: {trouble.message}"
  | .drawingFailure trouble => s!"save_tree_image: traceback\n{trouble.line}"
  | .drawn image took => s!"Tree saved to: {image} ({write 2 took})"
  | .started root mode => s!"Parsing Python repository: {root.text} (mode={mode})"
  | .imagesGoTo directory => s!"Output directory: {directory.text}"
  | .found count suffix root => s!"Found {count} {suffix} files under {root.text}"
  | .processing index path => s!"[{index}] Processing: {path.text}"
  | .overwritten image path previous =>
    s!"Image {image} from {path.text} overwrote the one from {previous}"
  | .succeeded took => s!"  SUCCESS ({write 2 took})"
  | .failedByError => "  FAILED (exception)"
  | .failedByFaults count => s!"  FAILED ({count} syntax errors)"
  | .rootFailed trouble => s!"Error: {trouble.message}"
  | .ruler => String.ofList (List.replicate 70 '=')
  | .summaryTitle => "SUMMARY"
  | .total count => s!"  Total files processed: {count}"
  | .totalSucceeded count => s!"  Succeeded:             {count}"
  | .totalFailed count => s!"  Failed:                {count}"
  | .imagesSavedTo directory => s!"  Parse trees saved to:  {directory.text}"
  | .failuresTitle => "Failed files:"
  | .failure source reason => s!"  - {source}: {reason}"
  | .reported path => s!"Report written to {path.text}"
  | .finished took => s!"Total runtime: {write 1 took}"

def text (event : Event) : String :=
  event.textWith Duration.text

/-- An event as a line of a log file. -/
def line (event : Event) : String :=
  s!"{event.level.name} | {event.text}\n"

end Log.Event

/-- Events in the order in which they arose. -/
abbrev Log := List Log.Event

/-- The events that are kept: those below the level of information only on demand. -/
def Log.visible (verbose : Bool) (log : Log) : Log :=
  if verbose then log else log.filter fun event => event.level != .debug

end SyntaxSurvey
