import SyntaxSurvey.Grammar.Lookahead
import SyntaxSurvey.Grammar.Scanner

/-! The table that drives the parser: for each state what to do at each terminal, where a completed
nonterminal leads, and which terminals to scan for. -/

namespace SyntaxSurvey.Grammar

/-- A language: its productions and start, its terminals in scanning order, those among them that
leave no token, and those that are scanned for in every state. -/
structure Language where
  start : String
  productions : List Production
  terminals : List Terminal
  ignored : List String
  alwaysScanned : List String

inductive Action where
  | shift (state : Nat)
  | reduce (production : Production)

structure Row where
  actions : Std.HashMap String Action
  gotos : Std.HashMap String Nat
  scanner : Scanner

/-- The table of a language. The state in which a whole text was read is `final`. -/
structure Table where
  rows : Array Row
  final : Option Nat
  ignored : List String
  /-- Scans for every terminal of the language. -/
  anyScanner : Scanner
  /-- No more reductions than this, times the height of the stack, come before a shift. -/
  reductionBound : Nat

namespace Table

def action? (t : Table) (state : Nat) (kind : String) : Option Action :=
  (t.rows[state]?).bind fun row => row.actions[kind]?

def goto? (t : Table) (state : Nat) (nonterminal : String) : Option Nat :=
  (t.rows[state]?).bind fun row => row.gotos[nonterminal]?

/-- The terminals that may come in a state, in no particular order. -/
def expected (t : Table) (state : Nat) : List String :=
  match t.rows[state]? with
  | some row => row.actions.keys
  | none => []

def scanner (t : Table) (state : Nat) : Scanner :=
  match t.rows[state]? with
  | some row => row.scanner
  | none => t.anyScanner

/-- The terminals that leave a token and that are scanned for in a state. -/
def scannedFor (t : Table) (state : Nat) : List String :=
  ((t.scanner state).tried.map (·.name)).filter fun name => !t.ignored.contains name

def rowOf (language : Language) (productions : Array Production)
    (moves : List (Symbol × Nat)) (complete : List (Nat × List String)) : Row :=
  let reductions := complete.foldl
    (fun actions (production, follow) =>
      match productions[production]? with
      | none => actions
      | some production =>
        follow.foldl (fun actions name => actions.insertIfNew name (.reduce production)) actions)
    (∅ : Std.HashMap String Action)
  let actions := moves.foldl
    (fun actions (symbol, target) =>
      match symbol with
      | .terminal name => actions.insert name (.shift target)
      | .nonterminal _ => actions)
    reductions
  let gotos := moves.foldl
    (fun gotos (symbol, target) =>
      match symbol with
      | .terminal _ => gotos
      | .nonterminal name => gotos.insert name target)
    (∅ : Std.HashMap String Nat)
  let scanned (name : String) : Bool :=
    actions.contains name || language.ignored.contains name || language.alwaysScanned.contains name
  ⟨actions, gotos, .ofAccepted language.terminals scanned⟩

def ofLanguage (language : Language) : Table :=
  let rules := Rules.ofProductions language.start language.productions
  let automaton := Automaton.ofRules rules
  let alphabet := rules.alphabet
  let complete := (automaton.completions rules alphabet).fold
    (fun table (state, production) follow =>
      table.modify state ((production, alphabet.members follow) :: ·))
    (Array.replicate automaton.kernels.size [])
  let rows := automaton.next.zipIdx.map fun (moves, state) =>
    rowOf language rules.productions moves (complete.getD state [])
  { rows := rows
    final := automaton.target? 0 (.nonterminal language.start)
    ignored := language.ignored
    anyScanner := .ofAccepted language.terminals fun _ => true
    reductionBound := rules.productions.size }

end Table

end SyntaxSurvey.Grammar
