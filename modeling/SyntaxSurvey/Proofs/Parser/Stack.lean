import SyntaxSurvey.Parser.Stack
import SyntaxSurvey.Proofs.Grammar.Hidden

/-! The symbols on a stack. Each frame was put on top by moving over a symbol, and the state on top says
which symbols were moved over last. So whenever a production is completed, its symbols are on top of the
stack, also after any number of faults. -/

namespace SyntaxSurvey.Parser

open Grammar

/-- Productions are completed one after the other because the same terminal comes next. -/
inductive Reduces (t : Table) (kind : String) : Stack → Stack → Prop where
  | refl (stack : Stack) : Reduces t kind stack stack
  | step {stack middle top : Stack} {p : Production}
      (action : t.action? (Stack.state stack) kind = some (.reduce p))
      (completed : complete? t p stack = some middle) (rest : Reduces t kind middle top) :
      Reduces t kind stack top

/-- What comes of offering a token, after what was completed before it. -/
inductive Offering (t : Table) (token : Token) (stack : Stack) : Offer → Prop where
  | shifted {middle : Stack} {state : Nat} (reduces : Reduces t token.kind stack middle)
      (action : t.action? (Stack.state middle) token.kind = some (.shift state)) :
      Offering t token stack (.shifted (⟨state, .leaf token⟩ :: middle))
  | refused {top : Stack} (reduces : Reduces t token.kind stack top) :
      Offering t token stack (.refused top)
  | accepted {middle below : Stack} {frame : Frame} {p : Production}
      (reduces : Reduces t token.kind stack middle)
      (action : t.action? (Stack.state middle) token.kind = some (.reduce p))
      (completed : complete? t p middle = some (frame :: below)) :
      Offering t token stack (.accepted frame.tree)

variable {t : Table} {token : Token} {stack middle top : Stack} {p : Production}

/-- A reduction before an offer is part of it. -/
theorem Offering.head {result : Offer}
    (action : t.action? (Stack.state stack) token.kind = some (.reduce p))
    (completed : complete? t p stack = some middle) (rest : Offering t token middle result) :
    Offering t token stack result := by
  cases rest with
  | shifted reduces shift => exact .shifted (.step action completed reduces) shift
  | refused reduces => exact .refused (.step action completed reduces)
  | accepted reduces last final => exact .accepted (.step action completed reduces) last final

/-- However many reductions are allowed, an offer takes as many of them as its token asks for. -/
theorem offering_within (t : Table) (token : Token) (steps : Nat) (stack : Stack) :
    Offering t token stack (offerWithin t token steps stack) := by
  induction steps generalizing stack with
  | zero => exact .refused (.refl stack)
  | succ steps ih =>
      rw [offerWithin]
      split
      · exact .refused (.refl stack)
      · rename_i state hAction
        exact .shifted (.refl stack) hAction
      · rename_i p hAction
        split
        · exact .refused (.refl stack)
        · exact .refused (.refl stack)
        · rename_i frame below hCompleted
          split
          · exact .accepted (.refl stack) hAction hCompleted
          · exact (ih (frame :: below)).head hAction hCompleted

theorem offering (t : Table) (token : Token) (stack : Stack) :
    Offering t token stack (offer t token stack) :=
  offering_within t token _ stack

/-- Each frame of a stack was put on top by moving over a symbol, the last one first. -/
inductive Grown (t : Table) : Stack → List Symbol → Prop where
  | nil : Grown t [] []
  | terminal {stack : Stack} {symbols : List Symbol} {kind : String} {frame : Frame}
      (below : Grown t stack symbols)
      (action : t.action? (Stack.state stack) kind = some (.shift frame.state)) :
      Grown t (frame :: stack) (.terminal kind :: symbols)
  | nonterminal {stack : Stack} {symbols : List Symbol} {name : String} {frame : Frame}
      (below : Grown t stack symbols)
      (goto : t.goto? (Stack.state stack) name = some frame.state) :
      Grown t (frame :: stack) (.nonterminal name :: symbols)

variable {symbols : List Symbol}

/-- A stack that has grown symbol by symbol is so without its last entries. -/
theorem Grown.drop (grown : Grown t stack symbols) (count : Nat) :
    Grown t (stack.drop count) (symbols.drop count) := by
  induction grown generalizing count with
  | nil => rw [List.drop_nil, List.drop_nil]; exact .nil
  | terminal below action ih =>
      cases count with
      | zero => exact .terminal below action
      | succ count => exact ih count
  | nonterminal below goto ih =>
      cases count with
      | zero => exact .nonterminal below goto
      | succ count => exact ih count

/-- An item of the state on top tells the symbols on top: those before its place in the production.
The induction is on that place; each step moves back over one symbol. -/
theorem Grown.symbols_of_has {language : Language} {n dot : Nat}
    (grown : Grown (Table.ofLanguage language) stack symbols)
    (hProduction : language.rules.productions[n]? = some p)
    (hItem : language.automaton.Has language.rules (Stack.state stack) ⟨n, dot⟩) :
    (p.symbols.take dot).reverse <+: symbols := by
  have hFaithful := language.faithful_automaton
  have hBack {stack : Stack} {symbols : List Symbol} {symbol : Symbol} {state : Nat}
      (dot : Nat) (edge : language.automaton.Edge (Stack.state stack) symbol state)
      (hItem : language.automaton.Has language.rules state ⟨n, dot + 1⟩)
      (ih : language.automaton.Has language.rules (Stack.state stack) ⟨n, dot⟩ →
        (p.symbols.take dot).reverse <+: symbols) :
      (p.symbols.take (dot + 1)).reverse <+: symbol :: symbols := by
    obtain ⟨before, hBefore, hSymbol, hNext⟩ := edge.back hFaithful hItem (Nat.succ_ne_zero dot)
    obtain ⟨m, place⟩ := before
    obtain ⟨rfl, hPlace⟩ := Item.mk.inj hNext
    obtain rfl : place = dot := Nat.succ.inj hPlace
    rw [Rules.symbolAt?_eq language.numbered_rules, hProduction] at hSymbol
    have hSymbol' : p.symbols[place]? = some symbol := hSymbol
    rw [List.take_add_one, hSymbol', Option.toList_some, List.reverse_append, List.reverse_singleton,
      List.singleton_append]
    exact List.cons_prefix_cons.mpr ⟨rfl, ih hBefore⟩
  induction dot generalizing stack symbols with
  | zero => exact List.nil_prefix
  | succ dot ih =>
      cases grown with
      | nil => exact absurd (Automaton.dot_of_has_first hFaithful hItem) (Nat.succ_ne_zero dot)
      | terminal below action =>
          exact hBack dot (Table.edge_of_shift action) hItem (ih below)
      | nonterminal below goto =>
          exact hBack dot (Table.edge_of_goto goto) hItem (ih below)

/-- A table that completes a production only when its symbols are on top of the stack, and that leaves
nothing of layout in trees. -/
structure Fits (t : Table) : Prop where
  matched : ∀ {stack : Stack} {symbols : List Symbol} {kind : String} {p : Production},
    Grown t stack symbols → t.action? (Stack.state stack) kind = some (.reduce p) →
      p.symbols.reverse <+: symbols
  hidden : ∀ {state : Nat} {kind : String} {p : Production},
    t.action? state kind = some (.reduce p) → p.HidesLayout

/-- The tables of the grammar fit their productions. -/
theorem fits_python (start : Python.Start) : Fits (Python.table start) where
  matched grown action := by
    obtain ⟨n, hProduction, hItem⟩ := Table.has_of_reduce action
    have hWhole := grown.symbols_of_has hProduction hItem
    rwa [List.take_length] at hWhole
  hidden action := Python.hidesLayout_of_reduce action

/-- Completing a production replaces its symbols by its nonterminal. -/
theorem Grown.complete (fits : Fits t) (grown : Grown t stack symbols) {kind : String}
    (action : t.action? (Stack.state stack) kind = some (.reduce p))
    (completed : complete? t p stack = some top) :
    ∃ rest, symbols = p.symbols.reverse ++ rest ∧ Grown t top (.nonterminal p.head :: rest)
      ∧ ∃ state, top = ⟨state, build p ((stack.take p.symbols.length).reverse.map (·.tree))⟩
        :: stack.drop p.symbols.length := by
  obtain ⟨rest, rfl⟩ := fits.matched grown action
  have hBelow := grown.drop p.symbols.length
  rw [← List.length_reverse, List.drop_left, List.length_reverse] at hBelow
  rw [complete?] at completed
  split at completed
  · cases completed
  · obtain ⟨state, hGoto, rfl⟩ := Option.map_eq_some_iff.mp completed
    exact ⟨rest, rfl, .nonterminal hBelow hGoto, state, rfl⟩

end SyntaxSurvey.Parser
