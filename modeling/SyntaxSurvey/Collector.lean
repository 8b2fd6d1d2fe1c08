import SyntaxSurvey.Log
import SyntaxSurvey.Parser.Attempt

/-! Collecting faults. A collector drives attempts: it records every fault that an attempt pauses at
and lets it go on until there are as many diagnostics as the cap allows, or the text is at its end.
The fault of an attempt that gives up without asking is recorded as well. -/

namespace SyntaxSurvey

/-- Diagnostics of a source so far, and the last fault. -/
structure Collector where
  source : String
  cap : Int
  diagnostics : List Diagnostic
  last : Option Fault
  deriving Repr, Inhabited

namespace Collector

def defaultSource : String := "<string>"

def defaultCap : Int := 100

def fresh (source : String := defaultSource) (cap : Int := defaultCap) : Collector :=
  ⟨source, cap, [], none⟩

def hasDiagnostics (c : Collector) : Bool :=
  !c.diagnostics.isEmpty

def record (c : Collector) (f : Fault) : Collector :=
  { c with diagnostics := c.diagnostics ++ [.ofFault f], last := some f }

/-- Whether to go on after a fault that was just recorded. -/
def goesOnAfter (c : Collector) (f : Fault) : Bool :=
  !f.isAtEnd && decide ((c.diagnostics.length : Int) < c.cap)

def log (c : Collector) : Log :=
  c.diagnostics.map (.diagnosed c.source)

inductive Outcome where
  | tree (tree : Tree)
  /-- There is no tree, and every fault was recorded. -/
  | noTree
  /-- A fault left the parser that is none of the text. -/
  | escaped (fault : Fault)
  deriving Inhabited

def Outcome.tree? : Outcome → Option Tree
  | .tree found => some found
  | _ => none

/-- Drive an attempt to its end. -/
def drive (c : Collector) : Parser.Attempt → Outcome × Collector
  | .parsed tree => (.tree tree, c)
  | .broken fault => if fault.isSyntactic then (.noTree, c.record fault) else (.escaped fault, c)
  | .paused fault resume =>
    let c := c.record fault
    if c.goesOnAfter fault then drive c (resume ()) else (.noTree, c)

def parse (c : Collector) (t : Grammar.Table) (text : String) : Outcome × Collector :=
  c.drive (Parser.attempt t text)

end Collector

end SyntaxSurvey
