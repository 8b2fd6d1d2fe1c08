import Mathlib.Data.List.Basic
import SyntaxSurvey.Grammar.Automaton

/-! The items of a state. A state has the items that it keeps and those that follow from them: with an
item before a nonterminal it has the items that start the productions of that nonterminal. Moving over
a symbol keeps exactly the items that are before that symbol. -/

namespace SyntaxSurvey.Grammar

/-- The item behind the symbol that an item is before. -/
def Item.next (item : Item) : Item :=
  ⟨item.production, item.dot + 1⟩

namespace Rules

/-- The productions are numbered in the order in which they are listed. -/
structure Numbered (r : Rules) : Prop where
  bodies : r.bodies = r.productions.map fun production => production.symbols.toArray
  alternatives : ∀ name, r.alternatives.getD name []
    = (r.productions.toList.zipIdx.filter fun entry => entry.1.head == name).map Prod.snd

theorem numbered_ofProductions (start : String) (productions : List Production) :
    (ofProductions start productions).Numbered where
  bodies := rfl
  alternatives name := by
    simp only [ofProductions]
    generalize (root start :: productions).toArray.toList.zipIdx = entries
    induction entries with
    | nil => simp
    | cons entry entries ih =>
        obtain ⟨production, n⟩ := entry
        simp only [List.foldr_cons, Std.HashMap.getD_insert, ih, List.filter_cons]
        by_cases hHead : production.head = name
        · subst hHead
          simp [ih]
        · simp [hHead]

variable {r : Rules} {kernel items : List Item} {waiting : List String}
  {seen : Std.HashMap String Unit} {steps : Nat} {name : String} {item : Item}

/-- The symbol at an item is that of its production behind the dot. -/
theorem symbolAt?_eq (h : r.Numbered) (item : Item) :
    r.symbolAt? item
      = (r.productions[item.production]?).bind fun production => production.symbols[item.dot]? := by
  rw [symbolAt?, h.bodies, Array.getElem?_map]
  cases r.productions[item.production]? <;> simp

theorem nonterminalAt?_eq_some_iff :
    r.nonterminalAt? item = some name ↔ r.symbolAt? item = some (.nonterminal name) := by
  rw [nonterminalAt?]
  split
  · rename_i other hSymbol
    rw [hSymbol]
    simp
  · rename_i hOther
    simp only [reduceCtorEq, false_iff]
    exact hOther name

/-- An item starts a name exactly if it stands at the front of one of its alternatives. -/
theorem mem_startItems : item ∈ r.startItems name
    ↔ item.dot = 0 ∧ item.production ∈ r.alternatives.getD name [] := by
  obtain ⟨production, dot⟩ := item
  simp only [startItems, List.mem_map, Item.mk.injEq]
  constructor
  · rintro ⟨n, hMem, rfl, rfl⟩
    exact ⟨rfl, hMem⟩
  · rintro ⟨rfl, hMem⟩
    exact ⟨production, hMem, rfl, rfl⟩

/-- The productions of a nonterminal are among those that are numbered. -/
theorem exists_production (h : r.Numbered) {n : Nat} (hMem : n ∈ r.alternatives.getD name []) :
    ∃ production, r.productions[n]? = some production := by
  rw [h.alternatives, List.mem_map] at hMem
  obtain ⟨⟨production, m⟩, hFound, rfl⟩ := hMem
  have hEntry := List.mem_zipIdx_iff_getElem?.mp (List.mem_of_mem_filter hFound)
  exact ⟨production, by simpa using hEntry⟩

/-- The number of productions whose nonterminal has not been expanded. -/
def unseen (r : Rules) (seen : Std.HashMap String Unit) : Nat :=
  r.productions.toList.countP fun production => !seen.contains production.head

/-- A name is started by as many items as it has productions. -/
theorem length_startItems (h : r.Numbered) (name : String) :
    (r.startItems name).length = r.productions.toList.countP fun production =>
      production.head == name := by
  rw [startItems, h.alternatives, List.length_map, List.length_map, ← List.countP_eq_length_filter]
  conv_rhs => rw [← List.zipIdx_map_fst 0 r.productions.toList, List.countP_map]
  rfl

/-- Expanding a nonterminal uses up its productions. -/
theorem unseen_insert (h : r.Numbered) (hNew : seen.contains name = false) :
    r.unseen (seen.insert name ()) + (r.startItems name).length = r.unseen seen := by
  rw [length_startItems h, unseen, unseen]
  induction r.productions.toList with
  | nil => rfl
  | cons production productions ih =>
      simp only [List.countP_cons, Std.HashMap.contains_insert] at ih ⊢
      by_cases hHead : production.head = name
      · subst hHead
        simp only [BEq.rfl, Bool.true_or, Bool.not_true, hNew, Bool.not_false, ↓reduceIte,
          Bool.false_eq_true]
        omega
      · have hOther : (name == production.head) = false := by simpa using Ne.symm hHead
        simp only [hOther, hHead, Bool.false_or, beq_iff_eq, ↓reduceIte]
        omega

/-- How far expanding has come: what an item is before is waiting or was expanded, and what was
expanded has its items. -/
structure Expanding (r : Rules) (waiting : List String) (seen : Std.HashMap String Unit)
    (items : List Item) : Prop where
  led : ∀ item ∈ items, ∀ name, r.nonterminalAt? item = some name →
    name ∈ waiting ∨ seen.contains name = true
  started : ∀ name, seen.contains name = true → r.startItems name ⊆ items

/-- A name that was seen is left out. -/
theorem Expanding.skip (h : r.Expanding (name :: waiting) seen items)
    (hSeen : seen.contains name = true) : r.Expanding waiting seen items where
  led item hItem other hOther := by
    rcases h.led item hItem other hOther with hMem | hDone
    · rcases List.mem_cons.mp hMem with rfl | hLater
      · exact Or.inr hSeen
      · exact Or.inl hLater
    · exact Or.inr hDone
  started := h.started

/-- A name that was not seen has its items added, and the names in front of which they stand wait.
-/
theorem Expanding.expand (h : r.Expanding (name :: waiting) seen items) :
    r.Expanding ((r.startItems name).filterMap r.nonterminalAt? ++ waiting) (seen.insert name ())
      ((r.startItems name).reverse ++ items) where
  led item hItem other hOther := by
    rcases List.mem_append.mp hItem with hNew | hOld
    · refine Or.inl (List.mem_append_left _ ?_)
      exact List.mem_filterMap.mpr ⟨item, List.mem_reverse.mp hNew, hOther⟩
    · rcases h.led item hOld other hOther with hMem | hDone
      · rcases List.mem_cons.mp hMem with rfl | hLater
        · exact Or.inr (by simp)
        · exact Or.inl (List.mem_append_right _ hLater)
      · exact Or.inr (by simp [Std.HashMap.contains_insert, hDone])
  started other hOther := by
    rw [Std.HashMap.contains_insert, Bool.or_eq_true, beq_iff_eq] at hOther
    intro item hItem
    rcases hOther with rfl | hDone
    · exact List.mem_append_left _ (List.mem_reverse.mpr hItem)
    · exact List.mem_append_right _ (h.started other hDone hItem)

theorem subset_expand (r : Rules) (steps : Nat) (waiting : List String)
    (seen : Std.HashMap String Unit) (items : List Item) :
    items ⊆ r.expand steps waiting seen items := by
  fun_induction Rules.expand r steps waiting seen items with
  | case1 => exact List.Subset.refl _
  | case2 => exact List.Subset.refl _
  | case3 steps name waiting seen items hSeen ih => exact ih
  | case4 steps name waiting seen items hNew added =>
      rename_i ih
      exact List.Subset.trans (List.subset_append_right _ _) ih

/-- Only items at the start of a production are added. -/
theorem dot_of_mem_expand (h : item ∈ r.expand steps waiting seen items) :
    item ∈ items ∨ item.dot = 0 := by
  fun_induction Rules.expand r steps waiting seen items with
  | case1 => exact Or.inl h
  | case2 => exact Or.inl h
  | case3 steps name waiting seen items hSeen ih => exact ih h
  | case4 steps name waiting seen items hNew added ih =>
      rcases ih h with hMem | hDot
      · rcases List.mem_append.mp hMem with hAdded | hOld
        · exact Or.inr (mem_startItems.mp (List.mem_reverse.mp hAdded)).1
        · exact Or.inl hOld
      · exact Or.inr hDot

/-- With enough steps nothing is left waiting. The measure is the nonterminals that wait and the
productions that may still put one on the list. -/
theorem started_of_mem_expand (hRules : r.Numbered) (h : r.Expanding waiting seen items)
    (hSteps : waiting.length + r.unseen seen ≤ steps)
    (hItem : item ∈ r.expand steps waiting seen items) (hName : r.nonterminalAt? item = some name) :
    r.startItems name ⊆ r.expand steps waiting seen items := by
  have hEnd {seen : Std.HashMap String Unit} {items : List Item} (h : r.Expanding [] seen items)
      (hItem : item ∈ items) : r.startItems name ⊆ items := by
    rcases h.led item hItem name hName with hNone | hSeen
    · exact absurd hNone List.not_mem_nil
    · exact h.started name hSeen
  fun_induction Rules.expand r steps waiting seen items with
  | case1 waiting seen items =>
      have hNone : waiting = [] := List.length_eq_zero_iff.mp (by omega)
      subst hNone
      exact hEnd h hItem
  | case2 seen items => exact hEnd h hItem
  | case3 steps other waiting seen items hSeen ih =>
      refine ih (h.skip hSeen) ?_ hItem
      rw [List.length_cons] at hSteps
      omega
  | case4 steps other waiting seen items hNew added ih =>
      refine ih h.expand ?_ hItem
      have hLess := List.length_filterMap_le r.nonterminalAt? added
      have hUsed : _ + added.length = _ := unseen_insert hRules (Bool.eq_false_iff.mpr hNew)
      rw [List.length_cons] at hSteps
      rw [List.length_append]
      omega

/-- A kernel is part of its closure. -/
theorem subset_closure (r : Rules) (kernel : List Item) : kernel ⊆ r.closure kernel := by
  intro item hItem
  rw [closure, List.mem_reverse]
  exact subset_expand r _ _ _ _ (List.mem_reverse.mpr hItem)

/-- What a closure adds stands at the front. -/
theorem dot_of_mem_closure (h : item ∈ r.closure kernel) : item ∈ kernel ∨ item.dot = 0 := by
  rw [closure, List.mem_reverse] at h
  rcases dot_of_mem_expand h with hKept | hDot
  · exact Or.inl (List.mem_reverse.mp hKept)
  · exact Or.inr hDot

/-- A closure is closed: with an item in front of a name it has all that start the name. -/
theorem started_of_mem_closure (hRules : r.Numbered) (hItem : item ∈ r.closure kernel)
    (hName : r.nonterminalAt? item = some name) : r.startItems name ⊆ r.closure kernel := by
  rw [closure, List.mem_reverse] at hItem
  have hFirst : r.Expanding (kernel.filterMap r.nonterminalAt?) ∅ kernel.reverse := by
    refine ⟨fun item hItem name hName => Or.inl ?_, by simp⟩
    exact List.mem_filterMap.mpr ⟨item, List.mem_reverse.mp hItem, hName⟩
  have hSteps : (kernel.filterMap r.nonterminalAt?).length + r.unseen ∅
      ≤ kernel.length + r.productions.size := by
    have hWaiting := List.length_filterMap_le r.nonterminalAt? kernel
    have hUnseen := List.countP_le_length (p := fun production : Production =>
      !(∅ : Std.HashMap String Unit).contains production.head) (l := r.productions.toList)
    rw [Array.length_toList] at hUnseen
    exact Nat.add_le_add hWaiting hUnseen
  have hStarted := started_of_mem_expand hRules hFirst hSteps hItem hName
  intro first hStart
  rw [closure, List.mem_reverse]
  exact hStarted hStart

/-- Sort one more item by the symbol that it is before. -/
def sortIn (r : Rules) (found : List Symbol × Std.HashMap Symbol (List Item)) (item : Item) :
    List Symbol × Std.HashMap Symbol (List Item) :=
  match r.symbolAt? item with
  | none => found
  | some symbol =>
    match found.2[symbol]? with
    | none => (symbol :: found.1, found.2.insert symbol [item.next])
    | some others => (found.1, found.2.insert symbol (item.next :: others))

/-- Moves are the items of the closure, sorted by the symbols in front of which they stand. -/
theorem moves_eq (r : Rules) (kernel : List Item) :
    r.moves kernel
      = ((r.closure kernel).foldl r.sortIn ([], ∅)).1.reverse.map fun symbol =>
        (symbol, (((r.closure kernel).foldl r.sortIn ([], ∅)).2.getD symbol []).mergeSort
          Item.notAfter) := by
  have hStep : (fun (found : List Symbol × Std.HashMap Symbol (List Item)) (item : Item) =>
      match r.symbolAt? item with
      | none => (found.1, found.2)
      | some symbol =>
        match found.2[symbol]? with
        | none => (symbol :: found.1, found.2.insert symbol [item.next])
        | some others => (found.1, found.2.insert symbol (item.next :: others))) = r.sortIn := rfl
  rw [moves, ← hStep]
  rfl

/-- What was sorted so far: a symbol is on the list only if an item is before it, and the items kept
for it are those behind it. -/
structure Sorted (r : Rules) (items : List Item)
    (found : List Symbol × Std.HashMap Symbol (List Item)) : Prop where
  reached : ∀ symbol ∈ found.1, ∃ item ∈ items, r.symbolAt? item = some symbol
  kept : ∀ symbol after, after ∈ found.2.getD symbol []
    ↔ ∃ item ∈ items, r.symbolAt? item = some symbol ∧ item.next = after

/-- Items stay sorted by symbols when one more is sorted in. -/
theorem Sorted.sortIn {found : List Symbol × Std.HashMap Symbol (List Item)}
    (h : r.Sorted items found) (item : Item) : r.Sorted (items ++ [item]) (r.sortIn found item) := by
  have hEarlier {symbol : Symbol} (hReached : ∃ old ∈ items, r.symbolAt? old = some symbol) :
      ∃ old ∈ items ++ [item], r.symbolAt? old = some symbol := by
    obtain ⟨old, hOld, hSymbol⟩ := hReached
    exact ⟨old, List.mem_append_left _ hOld, hSymbol⟩
  have hLast (symbol : Symbol) (after : Item) :
      (∃ old ∈ items ++ [item], r.symbolAt? old = some symbol ∧ old.next = after)
        ↔ (∃ old ∈ items, r.symbolAt? old = some symbol ∧ old.next = after)
          ∨ r.symbolAt? item = some symbol ∧ item.next = after := by
    simp [or_and_right, exists_or]
  rw [Rules.sortIn]
  cases hSymbol : r.symbolAt? item with
  | none =>
      refine ⟨fun symbol hMem => hEarlier (h.reached symbol hMem), fun symbol after => ?_⟩
      rw [hLast, ← h.kept, hSymbol]
      simp
  | some symbol =>
      have hKept (other : Symbol) (after : Item) (others : List Item)
          (hOthers : found.2.getD symbol [] = others) :
          after ∈ (found.2.insert symbol (item.next :: others)).getD other []
            ↔ ∃ old ∈ items ++ [item], r.symbolAt? old = some other ∧ old.next = after := by
        rw [hLast, ← h.kept, hSymbol, Std.HashMap.getD_insert]
        by_cases hSame : symbol = other
        · subst hSame
          simp [hOthers, or_comm, eq_comm]
        · simp [hSame]
      cases hFound : found.2[symbol]? with
      | none =>
          simp only [hFound]
          refine ⟨fun other hMem => ?_, fun other after => hKept other after [] ?_⟩
          · rcases List.mem_cons.mp hMem with rfl | hOld
            · exact ⟨item, by simp, hSymbol⟩
            · exact hEarlier (h.reached other hOld)
          · simp [Std.HashMap.getD_eq_getD_getElem?, hFound]
      | some others =>
          simp only [hFound]
          refine ⟨fun other hMem => hEarlier (h.reached other hMem),
            fun other after => hKept other after others ?_⟩
          simp [Std.HashMap.getD_eq_getD_getElem?, hFound]

theorem Sorted.foldl {found : List Symbol × Std.HashMap Symbol (List Item)}
    (h : r.Sorted items found) (more : List Item) :
    r.Sorted (items ++ more) (more.foldl r.sortIn found) := by
  induction more generalizing items found with
  | nil => simpa using h
  | cons item more ih =>
      have hNext := ih (h.sortIn item)
      rwa [List.append_assoc, List.singleton_append] at hNext

/-- A state moves over a symbol only if one of its items is before that symbol, and then it keeps the
items behind it, and no others. -/
theorem mem_moves {symbol : Symbol} {after : List Item} (h : (symbol, after) ∈ r.moves kernel) :
    (∃ item ∈ r.closure kernel, r.symbolAt? item = some symbol)
      ∧ ∀ next, next ∈ after
        ↔ ∃ item ∈ r.closure kernel, r.symbolAt? item = some symbol ∧ item.next = next := by
  have hFirst : r.Sorted [] ([], ∅) := ⟨by simp, by simp⟩
  have hSorted := hFirst.foldl (r.closure kernel)
  rw [moves_eq, List.mem_map] at h
  obtain ⟨other, hMem, hPair⟩ := h
  obtain ⟨rfl, rfl⟩ := Prod.mk.inj hPair
  refine ⟨hSorted.reached other (List.mem_reverse.mp hMem), fun next => ?_⟩
  rw [List.mem_mergeSort]
  exact hSorted.kept other next

end Rules

end SyntaxSurvey.Grammar
