import SyntaxSurvey.Grammar.Automaton

/-! Lookahead: the terminals that may follow where a production is complete. They are found by
relating the places where the automaton moves over a nonterminal. A terminal follows such a place
because the next state moves over it, because what comes between can be empty, or because the
nonterminal ends a production and the terminal follows that one. Each of these is an inclusion of
sets, and the sets wanted are the least ones that satisfy them all. Sets of terminals are numbers
with a bit for each terminal. -/

namespace SyntaxSurvey.Grammar

/-- The terminal at the end of the text, which no production mentions. -/
def endOfText : String := "$END"

/-- The least sets that hold their seeds and, along each edge, the set it leads to. A round goes
through all sets once; at most as many rounds as there are sets change anything. -/
def leastSets (edges : Array (List Nat)) : (rounds : Nat) → Array Nat → Array Nat
  | 0, sets => sets
  | rounds + 1, sets =>
    let (changed, sets) := (List.range edges.size).foldl
      (fun (changed, sets) n =>
        let old := sets.getD n 0
        let new := (edges.getD n []).foldl (fun set m => set ||| sets.getD m 0) old
        if new = old then (changed, sets) else (true, sets.setIfInBounds n new))
      (false, sets)
    if changed then leastSets edges rounds sets else sets

/-- The nonterminals that can be empty, found in rounds until none is added. -/
def Rules.emptiable (r : Rules) :
    (rounds : Nat) → Std.HashMap String Unit → Std.HashMap String Unit
  | 0, found => found
  | rounds + 1, found =>
    let canVanish (symbol : Symbol) : Bool :=
      match symbol with
      | .terminal _ => false
      | .nonterminal name => found.contains name
    let more := r.productions.foldl
      (fun more production =>
        if production.symbols.all canVanish then more.insert production.head () else more)
      found
    if more.size = found.size then found else emptiable r rounds more

/-- Places where the automaton moves over a nonterminal, with the state before, the nonterminal and
the state after, and the number of each place. -/
structure Crossings where
  places : Array (Nat × String × Nat)
  numbers : Std.HashMap (Nat × String) Nat

def Automaton.crossings (a : Automaton) : Crossings :=
  let places := a.next.toList.zipIdx.flatMap fun (targets, state) =>
    targets.filterMap fun (symbol, target) =>
      match symbol with
      | .nonterminal name => some (state, name, target)
      | .terminal _ => none
  ⟨places.toArray, places.zipIdx.foldl
    (fun numbers ((state, name, _), n) => numbers.insert (state, name) n) ∅⟩

/-- Terminals by number. -/
structure Alphabet where
  names : Array String
  numbers : Std.HashMap String Nat

/-- The terminals of some productions, and the end of the text. -/
def Rules.alphabet (r : Rules) : Alphabet :=
  let names := (endOfText :: r.productions.toList.flatMap fun production =>
    production.symbols.filterMap fun
      | .terminal name => some name
      | .nonterminal _ => none).eraseDups
  ⟨names.toArray, names.zipIdx.foldl (fun numbers (name, n) => numbers.insert name n) ∅⟩

def Alphabet.only (alphabet : Alphabet) (name : String) : Nat :=
  match alphabet.numbers[name]? with
  | some n => 1 <<< n
  | none => 0

def Alphabet.members (alphabet : Alphabet) (set : Nat) : List String :=
  alphabet.names.toList.zipIdx.filterMap fun (name, n) => if set.testBit n then some name else none

/-- What a production tells about the crossings, when it starts at a state: the crossings in it
after which the rest can be empty, and the state at which it is complete. -/
def Automaton.trace (a : Automaton) (c : Crossings) (canVanish : Symbol → Bool) :
    (state : Nat) → List Symbol → List Nat × Option Nat
  | state, [] => ([], some state)
  | state, symbol :: rest =>
    match a.target? state symbol with
    | none => ([], none)
    | some target =>
      let (ends, complete) := trace a c canVanish target rest
      match symbol with
      | .terminal _ => (ends, complete)
      | .nonterminal name =>
        match rest.all canVanish, c.numbers[(state, name)]? with
        | true, some n => (n :: ends, complete)
        | _, _ => (ends, complete)

/-- For each state, the productions that can be complete there and the terminals that may follow
then. -/
abbrev Completions := Std.HashMap (Nat × Nat) Nat

/-- The lookahead of the complete productions of every state. -/
def Automaton.completions (a : Automaton) (r : Rules) (alphabet : Alphabet) : Completions :=
  let vanishing := r.emptiable (r.productions.size + 1) ∅
  let canVanish (symbol : Symbol) : Bool :=
    match symbol with
    | .terminal _ => false
    | .nonterminal name => vanishing.contains name
  let c := a.crossings
  let read := c.places.map fun (state, name, target) =>
    ((a.next.getD target []).foldl
      (fun set (symbol, _) =>
        match symbol with
        | .terminal terminal => set ||| alphabet.only terminal
        | .nonterminal _ => set)
      (if state = 0 ∧ (r.symbolAt? ⟨0, 0⟩) = some (.nonterminal name) then
        alphabet.only endOfText else 0))
  let throughEmpty := c.places.map fun (_, _, target) =>
    (a.next.getD target []).filterMap fun (symbol, _) =>
      match symbol with
      | .nonterminal next => if vanishing.contains next then c.numbers[(target, next)]? else none
      | .terminal _ => none
  let read := leastSets throughEmpty c.places.size read
  let traces := c.places.toList.zipIdx.flatMap fun ((state, name, _), n) =>
    (r.alternatives.getD name []).map fun production =>
      let (ends, complete) := a.trace c canVanish state
        ((r.bodies.getD production #[]).toList)
      (n, production, ends, complete)
  let atEnd := traces.foldl
    (fun edges (n, _, ends, _) =>
      ends.foldl (fun edges m => edges.setIfInBounds m (n :: edges.getD m [])) edges)
    (Array.replicate c.places.size [])
  let follow := leastSets atEnd c.places.size read
  traces.foldl
    (fun table (n, production, _, complete) =>
      match complete with
      | none => table
      | some state =>
        let key := (state, production)
        table.insert key (table.getD key 0 ||| follow.getD n 0))
    ∅

end SyntaxSurvey.Grammar
