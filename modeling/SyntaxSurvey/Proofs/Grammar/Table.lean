import SyntaxSurvey.Grammar.Table
import SyntaxSurvey.Proofs.Grammar.Automaton

/-! What a table takes from the automaton of its language. It moves over symbols as the automaton does,
and it completes a production only in a state that has the item at the end of that production. -/

namespace SyntaxSurvey.Grammar

namespace Language

def rules (language : Language) : Rules :=
  Rules.ofProductions language.start language.productions

def automaton (language : Language) : Automaton :=
  Automaton.ofRules language.rules

theorem numbered_rules (language : Language) : language.rules.Numbered :=
  Rules.numbered_ofProductions language.start language.productions

/-- The automaton of a language is faithful to its rules. -/
theorem faithful_automaton (language : Language) : language.automaton.Faithful language.rules :=
  Automaton.faithful_ofRules language.rules

end Language

namespace Table

variable {language : Language} {state target n : Nat} {kind name : String}

section Row

variable {productions : Array Production} {moves : List (Symbol × Nat)}
  {complete : List (Nat × List String)}

/-- Every action is a move of the state over the terminal, or the completion of a production that can be
complete there. -/
def Explained (productions : Array Production) (moves : List (Symbol × Nat))
    (complete : List (Nat × List String)) (actions : Std.HashMap String Action) : Prop :=
  ∀ kind action, actions[kind]? = some action →
    (∃ target, (.terminal kind, target) ∈ moves ∧ action = .shift target)
      ∨ ∃ entry ∈ complete, ∃ production, productions[entry.1]? = some production
        ∧ action = .reduce production

/-- Actions stay explained when a production that is complete is to be reduced by. -/
theorem Explained.reduce {actions : Std.HashMap String Action}
    (h : Explained productions moves complete actions) {entry : Nat × List String}
    (hEntry : entry ∈ complete) {production : Production}
    (hProduction : productions[entry.1]? = some production) (name : String) :
    Explained productions moves complete (actions.insertIfNew name (.reduce production)) := by
  intro kind action hAction
  rw [Std.HashMap.getElem?_insertIfNew] at hAction
  split at hAction
  · exact Or.inr ⟨entry, hEntry, production, hProduction, (Option.some.inj hAction).symm⟩
  · exact h kind action hAction

/-- Actions stay explained when a move over a terminal is to be shifted by. -/
theorem Explained.shift {actions : Std.HashMap String Action}
    (h : Explained productions moves complete actions) {name : String} {target : Nat}
    (hMove : (.terminal name, target) ∈ moves) :
    Explained productions moves complete (actions.insert name (.shift target)) := by
  intro kind action hAction
  rw [Std.HashMap.getElem?_insert] at hAction
  split at hAction
  · rename_i hSame
    obtain rfl := beq_iff_eq.mp hSame
    exact Or.inl ⟨target, hMove, (Option.some.inj hAction).symm⟩
  · exact h kind action hAction

/-- Every action of a row has its reason in the state. -/
theorem explained_rowOf :
    Explained productions moves complete (rowOf language productions moves complete).actions := by
  have hNone : Explained productions moves complete ∅ := fun kind action h => by simp at h
  refine List.foldlRecOn moves _ ?_ fun actions hActions move hMove => ?_
  · refine List.foldlRecOn complete _ hNone fun actions hActions entry hEntry => ?_
    dsimp only
    split
    · exact hActions
    · rename_i production hProduction
      exact List.foldlRecOn entry.2 _ hActions fun actions hActions name _ =>
        hActions.reduce hEntry hProduction name
  · obtain ⟨symbol, target⟩ := move
    cases symbol with
    | terminal name => exact hActions.shift hMove
    | nonterminal name => exact hActions

/-- Every other move of a row is one over a nonterminal. -/
theorem goto_of_rowOf (h : (rowOf language productions moves complete).gotos[name]? = some target) :
    (.nonterminal name, target) ∈ moves := by
  have hAll : ∀ name target,
      (rowOf language productions moves complete).gotos[name]? = some target →
        (Symbol.nonterminal name, target) ∈ moves := by
    refine List.foldlRecOn (motive := fun gotos : Std.HashMap String Nat =>
      ∀ name target, gotos[name]? = some target → (Symbol.nonterminal name, target) ∈ moves) moves _
      (fun name target h => by simp at h) fun gotos hGotos move hMove => ?_
    obtain ⟨symbol, next⟩ := move
    cases symbol with
    | terminal name => exact hGotos
    | nonterminal other =>
        intro name target hGoto
        rw [Std.HashMap.getElem?_insert] at hGoto
        split at hGoto
        · rename_i hSame
          obtain rfl := beq_iff_eq.mp hSame
          obtain rfl := Option.some.inj hGoto
          exact hMove
        · exact hGotos name target hGoto
  exact hAll name target h

end Row

def complete (language : Language) : Array (List (Nat × List String)) :=
  (language.automaton.completions language.rules language.rules.alphabet).fold
    (fun table (state, production) follow =>
      table.modify state ((production, language.rules.alphabet.members follow) :: ·))
    (Array.replicate language.automaton.kernels.size [])

theorem rows_eq (language : Language) :
    (ofLanguage language).rows = language.automaton.next.zipIdx.map fun entry =>
      rowOf language language.rules.productions entry.1 ((complete language).getD entry.2 []) :=
  rfl

/-- What a table holds after some changes it held before or was given by one of them. -/
theorem mem_foldl_modify {entries : List ((Nat × Nat) × Nat)}
    {table : Array (List (Nat × List String))} {members : Nat → List String}
    {entry : Nat × List String}
    (h : entry ∈ (entries.foldl (fun table found =>
      table.modify found.1.1 ((found.1.2, members found.2) :: ·)) table).getD state []) :
    entry ∈ table.getD state [] ∨ ∃ found ∈ entries, found.1 = (state, entry.1) := by
  induction entries generalizing table with
  | nil => exact Or.inl h
  | cons first entries ih =>
      rcases ih h with hTable | ⟨found, hFound, hKey⟩
      · rw [Array.getD_eq_getD_getElem?, Array.getElem?_modify] at hTable
        rw [Array.getD_eq_getD_getElem?]
        split at hTable
        · rename_i hState
          cases hOld : table[state]? with
          | none => simp [hOld] at hTable
          | some old =>
              simp only [hOld, Option.map_some, Option.getD_some, List.mem_cons] at hTable ⊢
              rcases hTable with rfl | hMem
              · exact Or.inr ⟨first, Or.inl rfl, by rw [← hState]⟩
              · exact Or.inl hMem
        · exact Or.inl hTable
      · exact Or.inr ⟨found, List.mem_cons_of_mem _ hFound, hKey⟩

/-- A production that a state holds for complete is one of its completions. -/
theorem mem_complete {entry : Nat × List String} (h : entry ∈ (complete language).getD state []) :
    (state, entry.1) ∈ language.automaton.completions language.rules language.rules.alphabet := by
  rw [complete, Std.HashMap.fold_eq_foldl_toList] at h
  rcases mem_foldl_modify h with hNone | ⟨found, hFound, hKey⟩
  · rw [Array.getD_eq_getD_getElem?, Array.getElem?_replicate] at hNone
    split at hNone <;> simp at hNone
  · obtain ⟨key, follow⟩ := found
    obtain rfl : key = (state, entry.1) := hKey
    exact Std.HashMap.mem_iff_isSome_getElem?.mpr
      (Option.isSome_iff_exists.mpr ⟨follow, Std.HashMap.mem_toList_iff_getElem?_eq_some.mp hFound⟩)

/-- Every row is that of a state of the automaton. -/
theorem exists_row {row : Row} (h : (ofLanguage language).rows[state]? = some row) :
    ∃ moves, language.automaton.next[state]? = some moves
      ∧ row = rowOf language language.rules.productions moves ((complete language).getD state []) := by
  rw [rows_eq, Array.getElem?_map, Array.getElem?_zipIdx] at h
  cases hMoves : language.automaton.next[state]? with
  | none => simp [hMoves] at h
  | some moves =>
      simp only [hMoves, Option.map_some, Option.some.injEq, Nat.zero_add] at h
      exact ⟨moves, rfl, h.symm⟩

/-- Moving over a terminal leads where the automaton leads. -/
theorem edge_of_shift (h : (ofLanguage language).action? state kind = some (.shift target)) :
    language.automaton.Edge state (.terminal kind) target := by
  obtain ⟨row, hRow, hAction⟩ := Option.bind_eq_some_iff.mp h
  obtain ⟨moves, hMoves, rfl⟩ := exists_row hRow
  rcases explained_rowOf kind _ hAction with ⟨other, hMove, hSame⟩ | ⟨entry, -, production, -, hOther⟩
  · obtain rfl := Action.shift.inj hSame
    exact ⟨moves, hMoves, hMove⟩
  · cases hOther

/-- Moving over a completed nonterminal leads where the automaton leads. -/
theorem edge_of_goto (h : (ofLanguage language).goto? state name = some target) :
    language.automaton.Edge state (.nonterminal name) target := by
  obtain ⟨row, hRow, hGoto⟩ := Option.bind_eq_some_iff.mp h
  obtain ⟨moves, hMoves, rfl⟩ := exists_row hRow
  exact ⟨moves, hMoves, goto_of_rowOf hGoto⟩

/-- A production is completed only in a state that has the item at its end. -/
theorem has_of_reduce {production : Production}
    (h : (ofLanguage language).action? state kind = some (.reduce production)) :
    ∃ n, language.rules.productions[n]? = some production
      ∧ language.automaton.Has language.rules state ⟨n, production.symbols.length⟩ := by
  obtain ⟨row, hRow, hAction⟩ := Option.bind_eq_some_iff.mp h
  obtain ⟨moves, hMoves, rfl⟩ := exists_row hRow
  rcases explained_rowOf kind _ hAction with ⟨other, -, hOther⟩ | ⟨entry, hEntry, found, hFound, hSame⟩
  · cases hOther
  · obtain rfl := Action.reduce.inj hSame
    obtain ⟨completed, hCompleted, hHas⟩ := Automaton.has_of_completions language.numbered_rules
      language.faithful_automaton (mem_complete hEntry)
    obtain rfl : production = completed := Option.some.inj (hFound.symm.trans hCompleted)
    exact ⟨entry.1, hFound, hHas⟩

end Table

end SyntaxSurvey.Grammar
