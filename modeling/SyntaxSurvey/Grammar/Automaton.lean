import SyntaxSurvey.Grammar.Production
import Std.Data.HashMap

/-! The automaton of a grammar that recognises the right-hand sides of its productions. A state is
the set of items that the parser may be at: productions with a place in their right-hand side.
Only the items that were reached by moving over a symbol are kept; the others of a state follow
from them. -/

namespace SyntaxSurvey.Grammar

/-- A production, by its number, and a place in its right-hand side. -/
structure Item where
  production : Nat
  dot : Nat
  deriving DecidableEq, Hashable, Repr, Inhabited

/-- The order in which the items of a state are kept. -/
def Item.notAfter (a b : Item) : Bool :=
  decide (a.production < b.production) ||
    (a.production == b.production && decide (a.dot ≤ b.dot))

/-- The productions of a grammar by number, their right-hand sides, and the numbers of the
productions of each nonterminal. Production number zero is that of the start. -/
structure Rules where
  productions : Array Production
  bodies : Array (Array Symbol)
  alternatives : Std.HashMap String (List Nat)

namespace Rules

def root (start : String) : Production :=
  ⟨"$root", [.symbol (.nonterminal start) true], "$root", false⟩

def ofProductions (start : String) (productions : List Production) : Rules :=
  let numbered := (root start :: productions).toArray
  let alternatives := numbered.toList.zipIdx.foldr
    (fun (production, n) table =>
      table.insert production.head (n :: table.getD production.head []))
    (∅ : Std.HashMap String (List Nat))
  ⟨numbered, numbered.map fun production => production.symbols.toArray, alternatives⟩

def symbolAt? (r : Rules) (item : Item) : Option Symbol :=
  (r.bodies[item.production]?).bind fun body => body[item.dot]?

def nonterminalAt? (r : Rules) (item : Item) : Option String :=
  match r.symbolAt? item with
  | some (.nonterminal name) => some name
  | _ => none

def startItems (r : Rules) (nonterminal : String) : List Item :=
  (r.alternatives.getD nonterminal []).map fun n => ⟨n, 0⟩

/-- Add the items of the waiting nonterminals and of those that they lead to. -/
def expand (r : Rules) :
    (steps : Nat) → (waiting : List String) → Std.HashMap String Unit → List Item → List Item
  | 0, _, _, items => items
  | _ + 1, [], _, items => items
  | steps + 1, name :: waiting, seen, items =>
    if seen.contains name then expand r steps waiting seen items
    else
      let added := r.startItems name
      expand r steps (added.filterMap r.nonterminalAt? ++ waiting) (seen.insert name ())
        (added.reverse ++ items)

/-- All items of the state that keeps the given ones. Every production puts at most one
nonterminal on the waiting list, which bounds the steps. -/
def closure (r : Rules) (kernel : List Item) : List Item :=
  (r.expand (kernel.length + r.productions.size) (kernel.filterMap r.nonterminalAt?) ∅
    kernel.reverse).reverse

/-- The symbols that a state moves over, in the order of its items, with the items that are kept
afterwards. -/
def moves (r : Rules) (kernel : List Item) : List (Symbol × List Item) :=
  let (order, reached) := (r.closure kernel).foldl
    (fun (order, reached) item =>
      match r.symbolAt? item with
      | none => (order, reached)
      | some symbol =>
        let after : Item := ⟨item.production, item.dot + 1⟩
        match reached[symbol]? with
        | none => (symbol :: order, reached.insert symbol [after])
        | some others => (order, reached.insert symbol (after :: others)))
    (([] : List Symbol), (∅ : Std.HashMap Symbol (List Item)))
  order.reverse.map fun symbol =>
    (symbol, (reached.getD symbol []).mergeSort Item.notAfter)

end Rules

/-- States by number with the items each keeps, and for the states that were looked at the number
of the state that each symbol leads to. -/
structure Automaton where
  kernels : Array (List Item)
  next : Array (List (Symbol × Nat))
  numbers : Std.HashMap (List Item) Nat

namespace Automaton

def initial : Automaton :=
  let kernel : List Item := [⟨0, 0⟩]
  ⟨#[kernel], #[], (∅ : Std.HashMap (List Item) Nat).insert kernel 0⟩

/-- The number of a state, which is added when it is new. -/
def number (a : Automaton) (kernel : List Item) : Nat × Automaton :=
  match a.numbers[kernel]? with
  | some n => (n, a)
  | none =>
    let n := a.kernels.size
    (n, { a with kernels := a.kernels.push kernel, numbers := a.numbers.insert kernel n })

/-- Look at one state: number the states it leads to. -/
def lookAt (r : Rules) (a : Automaton) (kernel : List Item) : Automaton :=
  let (targets, a) := (r.moves kernel).foldl
    (fun (targets, a) (symbol, kernel) =>
      let (n, a) := a.number kernel
      ((symbol, n) :: targets, a))
    (([] : List (Symbol × Nat)), a)
  { a with next := a.next.push targets.reverse }

/-- Look at the states one after the other, until no new one is left. -/
def explore (r : Rules) : (steps : Nat) → Automaton → Automaton
  | 0, a => a
  | steps + 1, a =>
    match a.kernels[a.next.size]? with
    | none => a
    | some kernel => explore r steps (lookAt r a kernel)

def mostStates : Nat := 100000

def ofRules (r : Rules) : Automaton :=
  explore r mostStates initial

def target? (a : Automaton) (state : Nat) (symbol : Symbol) : Option Nat :=
  (a.next[state]?).bind fun targets => targets.lookup symbol

end Automaton

end SyntaxSurvey.Grammar
