import Mathlib.Data.List.Perm.Basic
import Mathlib.Data.String.Basic
import Mathlib.Order.Lex
import SyntaxSurvey.FileSystem.Traversal
import SyntaxSurvey.Proofs.FileSystem.Descendants

/-! A traversal of a directory tree comes to all that is listed, and to each place before those after
it in the order of paths, that is, of their names one after another. -/

namespace SyntaxSurvey.FileSystem.Entry

/-- The part of a walk for an entry is the entry with all that lies below it. -/
theorem mem_visits {entries : List (String × Entry)} {name : String}
    {block : List (List String × Entry)} :
    (name, block) ∈ visits entries ↔ ∃ entry, (name, entry) ∈ entries
      ∧ block = ([name], entry) ::
          entry.traversed.map fun (names, found) => (name :: names, found) := by
  induction entries with
  | nil => simp [visits]
  | cons head rest ih =>
      obtain ⟨key, old⟩ := head
      rw [visits, List.mem_cons, ih]
      constructor
      · rintro (hHead | ⟨entry, hMem, rfl⟩)
        · cases hHead
          exact ⟨old, List.mem_cons_self, rfl⟩
        · exact ⟨entry, List.mem_cons_of_mem _ hMem, rfl⟩
      · rintro ⟨entry, hMem, rfl⟩
        rcases List.mem_cons.mp hMem with hHead | hRest
        · cases hHead
          exact Or.inl rfl
        · exact Or.inr ⟨entry, hRest, rfl⟩

theorem names_visits (entries : List (String × Entry)) :
    (visits entries).map Prod.fst = entries.map Prod.fst := by
  induction entries with
  | nil => rfl
  | cons head rest ih => rw [visits, List.map_cons, List.map_cons, ih]

/-- A traversal comes to everything that is listed, once for each time it is. -/
theorem traversed_perm (root : Entry) : root.traversed.Perm root.descendants := by
  refine (Entry.traversed.mutual_induct (fun root => root.traversed.Perm root.descendants)
    (fun entries => ((visits entries).flatMap Prod.snd).Perm (listed entries)) ?_ ?_ ?_ ?_).1 root
  · intro entries hEntries
    rw [traversed, descendants]
    exact ((List.mergeSort_perm _ _).flatMap fun visit _ => List.Perm.refl _).trans hEntries
  · intro other hOther
    cases other with
    | file content => exact List.Perm.refl _
    | link target => exact List.Perm.refl _
    | directory entries => exact absurd rfl (hOther entries)
  · exact List.Perm.refl _
  · intro name entry rest hEntry hRest
    rw [visits, listed, List.flatMap_cons]
    exact ((hEntry.map _).cons _).append hRest

theorem mem_traversed_iff {root : Entry} (hDistinct : root.Distinct) {names : List String}
    {found : Entry} :
    (names, found) ∈ root.traversed ↔ names ≠ [] ∧ root.at? names = some found := by
  rw [(traversed_perm root).mem_iff, mem_descendants_iff hDistinct]

/-- All that a visit yields lies at its entry or below it. -/
theorem exists_below_of_mem_visits {entries : List (String × Entry)} {names : List String}
    {visit : String × List (List String × Entry)} (hVisit : visit ∈ visits entries)
    (hNames : names ∈ visit.2.map Prod.fst) : ∃ below, names = visit.1 :: below := by
  obtain ⟨name, block⟩ := visit
  obtain ⟨entry, -, rfl⟩ := mem_visits.mp hVisit
  rw [List.map_cons, List.mem_cons, List.map_map] at hNames
  rcases hNames with rfl | hBelow
  · exact ⟨[], rfl⟩
  · obtain ⟨⟨below, found⟩, -, rfl⟩ := List.mem_map.mp hBelow
    exact ⟨below, rfl⟩

/-- The visits of a directory are in the order of different names. -/
theorem pairwise_visits {entries : List (String × Entry)} (hNames : (entries.map Prod.fst).Nodup) :
    ((visits entries).mergeSort fun visit other => decide (visit.1 ≤ other.1)).Pairwise
      fun visit other => visit.1 < other.1 := by
  have hSorted : ((visits entries).mergeSort fun visit other => decide (visit.1 ≤ other.1)).Pairwise
      fun visit other => decide (visit.1 ≤ other.1) = true := by
    refine List.pairwise_mergeSort (fun a b c hab hbc => ?_) (fun a b => ?_) _
    · simp only [decide_eq_true_eq] at hab hbc ⊢
      exact hab.trans hbc
    · simp only [Bool.or_eq_true, decide_eq_true_eq]
      exact le_total a.1 b.1
  have hDifferent : ((visits entries).mergeSort fun visit other =>
      decide (visit.1 ≤ other.1)).Pairwise fun visit other => visit.1 ≠ other.1 := by
    rw [← names_visits] at hNames
    exact List.pairwise_map.mp
      (((List.mergeSort_perm _ _).map Prod.fst).nodup_iff.mpr hNames)
  refine (hSorted.and hDifferent).imp fun hBoth => ?_
  exact lt_of_le_of_ne (of_decide_eq_true hBoth.1) hBoth.2

/-- A traversal comes to places in their order. -/
theorem pairwise_traversed {root : Entry} (hDistinct : root.Distinct) :
    (root.traversed.map Prod.fst).Pairwise (· < ·) := by
  revert hDistinct
  refine (Entry.traversed.mutual_induct
    (fun root => root.Distinct → (root.traversed.map Prod.fst).Pairwise (· < ·))
    (fun entries => (directory entries).Distinct →
      ∀ visit ∈ visits entries, (visit.2.map Prod.fst).Pairwise (· < ·)) ?_ ?_ ?_ ?_).1 root
  · intro entries hEntries hDistinct
    rw [traversed, List.map_flatMap, List.pairwise_flatMap]
    refine ⟨fun visit hVisit => hEntries hDistinct visit (List.mem_mergeSort.mp hVisit), ?_⟩
    refine (pairwise_visits (hDistinct [] _ rfl)).imp_of_mem fun hVisit hOther hLess => ?_
    intro names hNames others hOthers
    obtain ⟨below, rfl⟩ := exists_below_of_mem_visits (List.mem_mergeSort.mp hVisit) hNames
    obtain ⟨rest, rfl⟩ := exists_below_of_mem_visits (List.mem_mergeSort.mp hOther) hOthers
    exact List.cons_lt_cons_iff.mpr (Or.inl hLess)
  · intro other hOther hDistinct
    cases other with
    | file content => exact List.Pairwise.nil
    | link target => exact List.Pairwise.nil
    | directory entries => exact absurd rfl (hOther entries)
  · intro hDistinct visit hVisit
    cases hVisit
  · intro name entry rest hEntry hRest hDistinct visit hVisit
    rcases List.mem_cons.mp hVisit with rfl | hOther
    · have hInner := hDistinct.of_mem List.mem_cons_self
      rw [List.map_cons, List.map_map]
      refine List.pairwise_cons.mpr ⟨fun names hNames => ?_, ?_⟩
      · obtain ⟨⟨below, found⟩, hBelow, rfl⟩ := List.mem_map.mp hNames
        obtain ⟨hSome, -⟩ := (mem_traversed_iff hInner).mp hBelow
        obtain ⟨first, others, rfl⟩ := List.exists_cons_of_ne_nil hSome
        exact List.cons_lt_cons_iff.mpr (Or.inr ⟨rfl, List.nil_lt_cons first others⟩)
      · exact List.pairwise_map.mpr ((List.pairwise_map.mp (hEntry hInner)).imp fun hLess =>
          List.cons_lt_cons_iff.mpr (Or.inr ⟨rfl, hLess⟩))
    · exact hRest hDistinct.of_cons visit hOther

end SyntaxSurvey.FileSystem.Entry
