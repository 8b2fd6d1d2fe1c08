import SyntaxSurvey.Grammar.Lookahead
import SyntaxSurvey.Proofs.Grammar.Closure

/-! The states of an automaton and the items that each has. Whatever leads to a state leaves the same
items there, so the items of a state tell what was moved over last, however the state was reached. -/

namespace SyntaxSurvey.Grammar.Automaton

variable {r : Rules} {a b : Automaton} {kernel after : List Item} {state target n : Nat}
  {symbol : Symbol} {name : String} {item : Item}

/-- The numbers of states and what states lead to are those of the items that are kept. -/
structure Faithful (r : Rules) (a : Automaton) : Prop where
  first : a.kernels[0]? = some [⟨0, 0⟩]
  numbered : ∀ (kernel : List Item) (n : Nat), a.numbers[kernel]? = some n →
    a.kernels[n]? = some kernel
  moved : ∀ (state : Nat) (targets : List (Symbol × Nat)), a.next[state]? = some targets →
    ∃ kernel, a.kernels[state]? = some kernel ∧ ∀ symbol target, (symbol, target) ∈ targets →
      ∃ after, (symbol, after) ∈ r.moves kernel ∧ a.kernels[target]? = some after

/-- An automaton in which all states of another one have their numbers. -/
def Extends (a b : Automaton) : Prop :=
  b.next = a.next ∧ ∀ (n : Nat) (kernel : List Item), a.kernels[n]? = some kernel →
    b.kernels[n]? = some kernel

theorem Extends.refl (a : Automaton) : a.Extends a :=
  ⟨rfl, fun _ _ h => h⟩

theorem Extends.trans {c : Automaton} (left : a.Extends b) (right : b.Extends c) : a.Extends c :=
  ⟨right.1.trans left.1, fun n kernel h => right.2 n kernel (left.2 n kernel h)⟩

/-- The automaton without states is faithful to any rules. -/
theorem faithful_initial (r : Rules) : initial.Faithful r where
  first := rfl
  numbered kernel n h := by
    simp only [initial, Std.HashMap.getElem?_insert, beq_iff_eq, Std.HashMap.getElem?_empty,
      Option.ite_none_right_eq_some, Option.some.injEq] at h
    obtain ⟨rfl, rfl⟩ := h
    rfl
  moved state targets h := by simp [initial] at h

/-- A state that is numbered has that number, and everything else stays. -/
theorem Faithful.number (h : a.Faithful r) (kernel : List Item) :
    (a.number kernel).2.Faithful r ∧ a.Extends (a.number kernel).2
      ∧ (a.number kernel).2.kernels[(a.number kernel).1]? = some kernel := by
  rw [Automaton.number]
  cases hNumber : a.numbers[kernel]? with
  | some n => exact ⟨h, .refl a, h.numbered kernel n hNumber⟩
  | none =>
      dsimp only
      have hKeep (n : Nat) (old : List Item) (hOld : a.kernels[n]? = some old) :
          (a.kernels.push kernel)[n]? = some old := by
        obtain ⟨hLess, -⟩ := Array.getElem?_eq_some_iff.mp hOld
        rw [Array.getElem?_push_lt hLess, ← hOld, Array.getElem?_eq_getElem hLess]
      refine ⟨⟨hKeep 0 _ h.first, fun other n hOther => ?_, fun state targets hTargets => ?_⟩,
        ⟨rfl, hKeep⟩, by simp⟩
      · simp only [Std.HashMap.getElem?_insert, beq_iff_eq] at hOther
        split at hOther
        · rename_i hSame
          obtain rfl := Option.some.inj hOther
          simp [hSame]
        · exact hKeep n other (h.numbered other n hOther)
      · obtain ⟨old, hOld, hMoved⟩ := h.moved state targets hTargets
        refine ⟨old, hKeep state old hOld, fun symbol target hMem => ?_⟩
        obtain ⟨after, hMove, hAfter⟩ := hMoved symbol target hMem
        exact ⟨after, hMove, hKeep target after hAfter⟩

/-- The states that a state leads to, as far as they are numbered. -/
def Leads (r : Rules) (kernel : List Item) (found : List (Symbol × Nat) × Automaton) : Prop :=
  ∀ symbol target, (symbol, target) ∈ found.1 →
    ∃ after, (symbol, after) ∈ r.moves kernel ∧ found.2.kernels[target]? = some after

/-- Number one more state that a state leads to. -/
def numberIn (found : List (Symbol × Nat) × Automaton) (move : Symbol × List Item) :
    List (Symbol × Nat) × Automaton :=
  ((move.1, (found.2.number move.2).1) :: found.1, (found.2.number move.2).2)

/-- Numbering the moves of a kernel one after the other keeps the automaton faithful and leads to a
state for each of them. -/
theorem leads_foldl {found : List (Symbol × Nat) × Automaton} (hFaithful : found.2.Faithful r)
    (hLeads : Leads r kernel found) (moves : List (Symbol × List Item))
    (hMoves : moves ⊆ r.moves kernel) :
    (moves.foldl numberIn found).2.Faithful r ∧ found.2.Extends (moves.foldl numberIn found).2
      ∧ Leads r kernel (moves.foldl numberIn found) := by
  induction moves generalizing found with
  | nil => exact ⟨hFaithful, .refl _, hLeads⟩
  | cons move moves ih =>
      obtain ⟨hNumbered, hExtends, hNumber⟩ := hFaithful.number move.2
      have hNext : (numberIn found move).2.Faithful r := hNumbered
      have hMore : Leads r kernel (numberIn found move) := by
        intro symbol target hMem
        rcases List.mem_cons.mp hMem with hNew | hOld
        · obtain ⟨rfl, rfl⟩ := Prod.mk.inj hNew
          exact ⟨move.2, hMoves (List.mem_cons_self ..), hNumber⟩
        · obtain ⟨after, hMove, hAfter⟩ := hLeads symbol target hOld
          exact ⟨after, hMove, hExtends.2 target after hAfter⟩
      obtain ⟨hLast, hLater, hAll⟩ := ih hNext hMore
        fun other hOther => hMoves (List.mem_cons_of_mem _ hOther)
      exact ⟨hLast, hExtends.trans hLater, hAll⟩

theorem lookAt_eq (r : Rules) (a : Automaton) (kernel : List Item) :
    lookAt r a kernel
      = { ((r.moves kernel).foldl numberIn ([], a)).2 with
          next := ((r.moves kernel).foldl numberIn ([], a)).2.next.push
            ((r.moves kernel).foldl numberIn ([], a)).1.reverse } :=
  rfl

/-- A faithful automaton stays so when one more of its kernels is looked at. -/
theorem Faithful.lookAt (h : a.Faithful r) (hKernel : a.kernels[a.next.size]? = some kernel) :
    (lookAt r a kernel).Faithful r := by
  have hFirst : (([], a) : List (Symbol × Nat) × Automaton).2.Faithful r := h
  have hNone : Leads r kernel ([], a) := fun symbol target hMem => absurd hMem List.not_mem_nil
  obtain ⟨hFaithful, hExtends, hLeads⟩ := leads_foldl hFirst hNone (r.moves kernel)
    (List.Subset.refl _)
  rw [lookAt_eq]
  generalize (r.moves kernel).foldl numberIn ([], a) = found at hFaithful hExtends hLeads
  refine ⟨hFaithful.first, hFaithful.numbered, fun state targets hTargets => ?_⟩
  rcases Nat.lt_or_ge state found.2.next.size with hOld | hNew
  · rw [Array.getElem?_push_lt hOld, ← Array.getElem?_eq_getElem hOld] at hTargets
    exact hFaithful.moved state targets hTargets
  · have hLast : state = found.2.next.size ∧ found.1.reverse = targets := by
      rw [Array.getElem?_push] at hTargets
      split at hTargets
      · rename_i hSame
        exact ⟨hSame, Option.some.inj hTargets⟩
      · rw [Array.getElem?_eq_none hNew] at hTargets
        exact absurd hTargets (by simp)
    obtain ⟨rfl, rfl⟩ := hLast
    refine ⟨kernel, hExtends.2 _ kernel (by rwa [hExtends.1]), fun symbol target hMem => ?_⟩
    exact hLeads symbol target (List.mem_reverse.mp hMem)

/-- However many kernels are looked at, the automaton stays faithful. -/
theorem Faithful.explore (h : a.Faithful r) (steps : Nat) : (explore r steps a).Faithful r := by
  induction steps generalizing a with
  | zero => exact h
  | succ steps ih =>
      rw [Automaton.explore]
      cases hKernel : a.kernels[a.next.size]? with
      | none => exact h
      | some kernel => exact ih (h.lookAt hKernel)

theorem faithful_ofRules (r : Rules) : (ofRules r).Faithful r :=
  (faithful_initial r).explore mostStates

/-- A state leads to another one over a symbol. -/
def Edge (a : Automaton) (state : Nat) (symbol : Symbol) (target : Nat) : Prop :=
  ∃ targets, a.next[state]? = some targets ∧ (symbol, target) ∈ targets

/-- A state has an item, whether it keeps it or the item follows from those that it keeps. -/
def Has (r : Rules) (a : Automaton) (state : Nat) (item : Item) : Prop :=
  ∃ kernel, a.kernels[state]? = some kernel ∧ item ∈ r.closure kernel

/-- A target that is found is reached over an edge. -/
theorem edge_of_target? (h : a.target? state symbol = some target) : a.Edge state symbol target := by
  obtain ⟨targets, hTargets, hLookup⟩ := Option.bind_eq_some_iff.mp h
  obtain ⟨before, after, rfl, -⟩ := List.lookup_eq_some_iff.mp hLookup
  exact ⟨_, hTargets, List.mem_append_right _ (List.mem_cons_self ..)⟩

/-- Moving over the symbol of an item leads to a state that has the item behind it. -/
theorem Edge.forward (h : a.Faithful r) (edge : a.Edge state symbol target)
    (hItem : a.Has r state item) (hSymbol : r.symbolAt? item = some symbol) :
    a.Has r target item.next := by
  obtain ⟨targets, hTargets, hMem⟩ := edge
  obtain ⟨kernel, hKernel, hClosure⟩ := hItem
  obtain ⟨other, hOther, hMoved⟩ := h.moved state targets hTargets
  obtain rfl : kernel = other := Option.some.inj (hKernel.symm.trans hOther)
  obtain ⟨after, hMove, hAfter⟩ := hMoved symbol target hMem
  have hNext := ((Rules.mem_moves hMove).2 item.next).mpr ⟨item, hClosure, hSymbol, rfl⟩
  exact ⟨after, hAfter, Rules.subset_closure r after hNext⟩

/-- An item inside a production is there because its last symbol was moved over. -/
theorem Edge.back (h : a.Faithful r) (edge : a.Edge state symbol target)
    (hItem : a.Has r target item) (hInside : item.dot ≠ 0) :
    ∃ before, a.Has r state before ∧ r.symbolAt? before = some symbol ∧ before.next = item := by
  obtain ⟨targets, hTargets, hMem⟩ := edge
  obtain ⟨kernel, hKernel, hMoved⟩ := h.moved state targets hTargets
  obtain ⟨after, hMove, hAfter⟩ := hMoved symbol target hMem
  obtain ⟨other, hOther, hClosure⟩ := hItem
  obtain rfl : after = other := Option.some.inj (hAfter.symm.trans hOther)
  rcases Rules.dot_of_mem_closure hClosure with hKept | hStart
  · obtain ⟨before, hBefore, hSymbol, hNext⟩ := ((Rules.mem_moves hMove).2 item).mp hKept
    exact ⟨before, ⟨kernel, hKernel, hBefore⟩, hSymbol, hNext⟩
  · exact absurd hStart hInside

/-- Where a nonterminal is moved over, its productions start. -/
theorem Edge.started (hRules : r.Numbered) (h : a.Faithful r)
    (edge : a.Edge state (.nonterminal name) target)
    (hProduction : n ∈ r.alternatives.getD name []) : a.Has r state ⟨n, 0⟩ := by
  obtain ⟨targets, hTargets, hMem⟩ := edge
  obtain ⟨kernel, hKernel, hMoved⟩ := h.moved state targets hTargets
  obtain ⟨after, hMove, -⟩ := hMoved _ target hMem
  obtain ⟨item, hItem, hSymbol⟩ := (Rules.mem_moves hMove).1
  have hStarted := Rules.started_of_mem_closure hRules hItem
    (Rules.nonterminalAt?_eq_some_iff.mpr hSymbol)
  exact ⟨kernel, hKernel, hStarted (Rules.mem_startItems.mpr ⟨rfl, hProduction⟩)⟩

/-- At the first state nothing was moved over. -/
theorem dot_of_has_first (h : a.Faithful r) (hItem : a.Has r 0 item) : item.dot = 0 := by
  obtain ⟨kernel, hKernel, hClosure⟩ := hItem
  obtain rfl : [⟨0, 0⟩] = kernel := Option.some.inj (h.first.symm.trans hKernel)
  rcases Rules.dot_of_mem_closure hClosure with hKept | hStart
  · obtain rfl := List.mem_singleton.mp hKept
    rfl
  · exact hStart

/-- A production that is traced from a state that has it is complete where tracing ends. -/
theorem has_of_trace (h : a.Faithful r) (c : Crossings) (canVanish : Symbol → Bool) {dot : Nat}
    {symbols : List Symbol} (hItem : a.Has r state ⟨n, dot⟩)
    (hSymbols : ∀ i symbol, symbols[i]? = some symbol → r.symbolAt? ⟨n, dot + i⟩ = some symbol)
    (hTrace : (a.trace c canVanish state symbols).2 = some target) :
    a.Has r target ⟨n, dot + symbols.length⟩ := by
  induction symbols generalizing state dot with
  | nil =>
      obtain rfl : state = target := Option.some.inj hTrace
      exact hItem
  | cons symbol symbols ih =>
      rw [trace] at hTrace
      cases hTarget : a.target? state symbol with
      | none => simp [hTarget] at hTrace
      | some middle =>
          have hRest : (a.trace c canVanish middle symbols).2 = some target := by
            simp only [hTarget] at hTrace
            split at hTrace
            · exact hTrace
            · split at hTrace <;> exact hTrace
          have hNext := (edge_of_target? hTarget).forward h hItem (hSymbols 0 symbol rfl)
          have hEnd := ih hNext (fun i other hOther => ?_) hRest
          · rwa [List.length_cons, Nat.add_comm symbols.length, ← Nat.add_assoc]
          · have hLater := hSymbols (i + 1) other hOther
            rwa [Nat.add_comm i, ← Nat.add_assoc] at hLater

/-- What tracing the productions of all crossings tells: the crossing, the production, and what comes
of tracing it. -/
def traces (r : Rules) (a : Automaton) (canVanish : Symbol → Bool) :
    List (Nat × Nat × List Nat × Option Nat) :=
  a.crossings.places.toList.zipIdx.flatMap fun place =>
    (r.alternatives.getD place.1.2.1 []).map fun production =>
      (place.2, production, a.trace a.crossings canVanish place.1.1
        (r.bodies.getD production #[]).toList)

/-- Note what one trace tells about the state at which the production is complete. -/
def note (follow : Array Nat) (table : Completions) (entry : Nat × Nat × List Nat × Option Nat) :
    Completions :=
  match entry.2.2.2 with
  | none => table
  | some state =>
    table.insert (state, entry.2.1)
      (table.getD (state, entry.2.1) 0 ||| follow.getD entry.1 0)

/-- Whatever can vanish and whatever may follow, completions are noted along the traces of the
productions. -/
theorem exists_completions_eq (r : Rules) (a : Automaton) (alphabet : Alphabet) :
    ∃ canVanish follow, a.completions r alphabet
      = (traces r a canVanish).foldl (note follow) ∅ :=
  ⟨_, _, rfl⟩

/-- What is completed in the end was completed before or is noted for a trace. -/
theorem mem_foldl_note {follow : Array Nat} {entries : List (Nat × Nat × List Nat × Option Nat)}
    {table : Completions} (h : (state, n) ∈ entries.foldl (note follow) table) :
    (state, n) ∈ table ∨ ∃ entry ∈ entries, entry.2.1 = n ∧ entry.2.2.2 = some state := by
  induction entries generalizing table with
  | nil => exact Or.inl h
  | cons entry entries ih =>
      rcases ih h with hTable | ⟨other, hOther, hEq⟩
      · rw [note] at hTable
        split at hTable
        · exact Or.inl hTable
        · rename_i last hLast
          rcases Std.HashMap.mem_insert.mp hTable with hSame | hOld
          · obtain ⟨rfl, rfl⟩ := Prod.mk.inj (beq_iff_eq.mp hSame)
            exact Or.inr ⟨entry, List.mem_cons_self .., rfl, hLast⟩
          · exact Or.inl hOld
      · exact Or.inr ⟨other, List.mem_cons_of_mem _ hOther, hEq⟩

/-- Every crossing that is counted is an edge. -/
theorem edge_of_mem_places (h : (state, name, target) ∈ a.crossings.places.toList) :
    a.Edge state (.nonterminal name) target := by
  simp only [crossings, List.mem_flatMap, List.mem_filterMap] at h
  obtain ⟨⟨targets, source⟩, hState, ⟨symbol, next⟩, hMem, hPlace⟩ := h
  have hTargets := List.mem_zipIdx_iff_getElem?.mp hState
  cases symbol with
  | terminal kind => simp at hPlace
  | nonterminal other =>
      simp only [Option.some.injEq, Prod.mk.injEq] at hPlace
      obtain ⟨rfl, rfl, rfl⟩ := hPlace
      exact ⟨targets, by simpa using hTargets, hMem⟩

/-- A state can complete a production only if it has the item at its end. -/
theorem has_of_completions (hRules : r.Numbered) (h : a.Faithful r) {alphabet : Alphabet}
    (hKey : (state, n) ∈ a.completions r alphabet) :
    ∃ production, r.productions[n]? = some production
      ∧ a.Has r state ⟨n, production.symbols.length⟩ := by
  obtain ⟨canVanish, follow, hEq⟩ := exists_completions_eq r a alphabet
  rw [hEq] at hKey
  rcases mem_foldl_note hKey with hNone | ⟨entry, hEntry, rfl, hTrace⟩
  · exact absurd hNone (by simp)
  · obtain ⟨⟨⟨source, name, middle⟩, index⟩, hPlace, hAlternative⟩ := List.mem_flatMap.mp hEntry
    obtain ⟨production, hProduction, rfl⟩ := List.mem_map.mp hAlternative
    have hCrossing := edge_of_mem_places (List.fst_mem_of_mem_zipIdx hPlace)
    obtain ⟨found, hFound⟩ := Rules.exists_production hRules hProduction
    have hBody : (r.bodies.getD production #[]).toList = found.symbols := by
      simp [Array.getD_eq_getD_getElem?, hRules.bodies, hFound]
    have hSymbols (i : Nat) (symbol : Symbol) (hSymbol : found.symbols[i]? = some symbol) :
        r.symbolAt? ⟨production, 0 + i⟩ = some symbol := by
      rw [Rules.symbolAt?_eq hRules, hFound, Nat.zero_add]
      exact hSymbol
    have hEnd := has_of_trace h a.crossings canVanish (hCrossing.started hRules h hProduction)
      hSymbols (hBody ▸ hTrace)
    exact ⟨found, hFound, by rwa [Nat.zero_add] at hEnd⟩

end SyntaxSurvey.Grammar.Automaton
