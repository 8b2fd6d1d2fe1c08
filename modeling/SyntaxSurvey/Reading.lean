import SyntaxSurvey.Collector
import SyntaxSurvey.Document
import SyntaxSurvey.FileSystem.Operations
import SyntaxSurvey.Record

/-! Readings: what parsing one source gives. A reading always has a record; troubles with the file
and faults of the layout rules end up in it as an error, and the diagnostics from before are
kept. -/

namespace SyntaxSurvey

structure Reading where
  record : Record
  tree : Option Tree
  log : Log
  deriving Inhabited

namespace Reading

/-- The reading of a source that a trouble has stopped, with the record so far. -/
def interrupted (path : Path) (record : Record) (log : Log) (trouble : Trouble) : Reading :=
  ⟨record.stoppedBy trouble, none, log ++ [.interrupted path trouble, .interruption trouble]⟩

def ofText (t : Grammar.Table) (path : Path) (record : Record) (text : String) : Reading :=
  let (outcome, c) := (Collector.fresh path.text Collector.defaultCap).parse t text
  let record := { record with diagnostics := c.diagnostics }
  let log : Log := .read path text.length :: c.log
  match outcome with
  | .escaped fault => interrupted path record log (.parser fault)
  | .tree _ | .noTree =>
    let status := if c.hasDiagnostics then Record.failure else Record.success
    ⟨{ record with status := status }, outcome.tree?, log⟩

def ofFile (t : Grammar.Table) (files : FileSystem) (path : Path) (took : Duration) : Reading :=
  let record := { Record.fresh path.name path.text with parseTime := took.seconds }
  match files.read path with
  | .error failure => interrupted path record [] (.file failure)
  | .ok bytes =>
    match Document.read bytes with
    | .error defect => interrupted path record [] (.undecodable defect)
    | .ok text => ofText t path record text

end Reading

end SyntaxSurvey
