import Mathlib.Data.List.Nodup
import SyntaxSurvey.Proofs.FileSystem.Entry

/-! The listing of a directory tree. It names every place below the root once, and each with the
entry that stands there, if no directory lists a name twice. -/

namespace SyntaxSurvey.FileSystem.Entry

/-- Among distinct names, an entry is found by its name if and only if it is listed. -/
theorem lookup_eq_some_iff_mem {entries : List (String × Entry)}
    (hDistinct : (entries.map Prod.fst).Nodup) {name : String} {entry : Entry} :
    entries.lookup name = some entry ↔ (name, entry) ∈ entries := by
  induction entries with
  | nil => simp
  | cons head rest ih =>
      obtain ⟨key, old⟩ := head
      obtain ⟨hKey, hRest⟩ := List.nodup_cons.mp hDistinct
      rw [lookup_cons_eq, List.mem_cons, Prod.mk.injEq]
      by_cases hName : name = key
      · subst hName
        have hAbsent : (name, entry) ∉ rest :=
          fun hMem => hKey (List.mem_map.mpr ⟨(name, entry), hMem, rfl⟩)
        simp [hAbsent, eq_comm]
      · simp [hName, ih hRest]

/-- Every directory of a tree lists each of its names once. -/
def Distinct (root : Entry) : Prop :=
  ∀ place entries, root.at? place = some (.directory entries) → (entries.map Prod.fst).Nodup

/-- Names are distinct in every entry of a directory if they are in the directory. -/
theorem Distinct.of_mem {entries : List (String × Entry)} {name : String} {child : Entry}
    (hDistinct : (directory entries).Distinct) (hMem : (name, child) ∈ entries) :
    child.Distinct := by
  have hLookup : (directory entries).child? name = some child :=
    (lookup_eq_some_iff_mem (hDistinct [] entries rfl)).mpr hMem
  intro place inner hInner
  refine hDistinct (name :: place) inner ?_
  rw [at?, hLookup]
  exact hInner

theorem Distinct.of_cons {head : String × Entry} {rest : List (String × Entry)}
    (hDistinct : (directory (head :: rest)).Distinct) : (directory rest).Distinct := by
  intro place inner hAt
  cases place with
  | nil =>
      cases hAt
      exact (List.nodup_cons.mp (hDistinct [] _ rfl)).2
  | cons name below =>
      obtain ⟨child, hLookup, hInner⟩ := Option.bind_eq_some_iff.mp hAt
      exact hDistinct.of_mem (List.mem_cons_of_mem _ (mem_of_lookup hLookup)) below inner hInner

/-- Names are distinct in whatever lies in a tree of distinct names. -/
theorem Distinct.of_at? {root entry : Entry} {place : Location} (hDistinct : root.Distinct)
    (hAt : root.at? place = some entry) : entry.Distinct := by
  intro rest inner hInner
  refine hDistinct (place ++ rest) inner ?_
  rw [at?_append, hAt]
  exact hInner

/-- What is listed for a directory is an entry, lies below the first entry, or is listed for the
others. -/
theorem mem_listed_cons {names : List String} {found entry : Entry} {name : String}
    {rest : List (String × Entry)} :
    (names, found) ∈ listed ((name, entry) :: rest)
      ↔ (names = [name] ∧ found = entry)
        ∨ (∃ below, names = name :: below ∧ (below, found) ∈ entry.descendants)
        ∨ (names, found) ∈ listed rest := by
  simp only [listed, List.mem_append, List.mem_cons, List.mem_map, Prod.mk.injEq, or_assoc]
  constructor
  · rintro (hHead | ⟨⟨below, entry⟩, hBelow, rfl, rfl⟩ | hRest)
    · exact Or.inl hHead
    · exact Or.inr (Or.inl ⟨below, rfl, hBelow⟩)
    · exact Or.inr (Or.inr hRest)
  · rintro (hHead | ⟨below, rfl, hBelow⟩ | hRest)
    · exact Or.inl hHead
    · exact Or.inr (Or.inl ⟨(below, found), hBelow, rfl, rfl⟩)
    · exact Or.inr (Or.inr hRest)

/-- Names that are listed begin with that of one of the entries. -/
theorem mem_listed_iff {entries : List (String × Entry)} {names : List String} {found : Entry} :
    (names, found) ∈ listed entries
      ↔ ∃ name entry below, (name, entry) ∈ entries ∧ names = name :: below
        ∧ (below = [] ∧ found = entry ∨ (below, found) ∈ entry.descendants) := by
  induction entries with
  | nil => simp [listed]
  | cons head rest ih =>
      obtain ⟨key, old⟩ := head
      rw [mem_listed_cons, ih]
      constructor
      · rintro (⟨rfl, rfl⟩ | ⟨below, rfl, hBelow⟩ | ⟨name, entry, below, hMem, rfl, hFound⟩)
        · exact ⟨key, found, [], by simp, rfl, Or.inl ⟨rfl, rfl⟩⟩
        · exact ⟨key, old, below, by simp, rfl, Or.inr hBelow⟩
        · exact ⟨name, entry, below, by simp [hMem], rfl, hFound⟩
      · rintro ⟨name, entry, below, hMem, rfl, hFound⟩
        rcases List.mem_cons.mp hMem with hHead | hRest
        · cases hHead
          rcases hFound with ⟨rfl, rfl⟩ | hBelow
          · exact Or.inl ⟨rfl, rfl⟩
          · exact Or.inr (Or.inl ⟨below, rfl, hBelow⟩)
        · exact Or.inr (Or.inr ⟨name, entry, below, hRest, rfl, hFound⟩)

/-- What is listed is what stands at some place below the root. -/
theorem mem_descendants_iff {root : Entry} (hDistinct : root.Distinct) {names : List String}
    {found : Entry} :
    (names, found) ∈ root.descendants ↔ names ≠ [] ∧ root.at? names = some found := by
  induction names generalizing root with
  | nil =>
      cases root with
      | file content => simp [descendants]
      | link target => simp [descendants]
      | directory entries =>
          rw [descendants, mem_listed_iff]
          simp
  | cons name below ih =>
      cases root with
      | file content => simp [descendants, at?, child?]
      | link target => simp [descendants, at?, child?]
      | directory entries =>
          have hNames := hDistinct [] entries rfl
          rw [descendants, mem_listed_iff, at?, child?]
          constructor
          · rintro ⟨name, entry, below, hMem, hNames, hFound⟩
            cases hNames
            rw [(lookup_eq_some_iff_mem hNames).mpr hMem]
            rcases hFound with ⟨rfl, rfl⟩ | hBelow
            · exact ⟨by simp, rfl⟩
            · exact ⟨by simp, ((ih (hDistinct.of_mem hMem)).mp hBelow).2⟩
          · rintro ⟨-, hAt⟩
            obtain ⟨entry, hLookup, hBelow⟩ := Option.bind_eq_some_iff.mp hAt
            have hMem := (lookup_eq_some_iff_mem hNames).mp hLookup
            refine ⟨name, entry, below, hMem, rfl, ?_⟩
            by_cases hNil : below = []
            · subst hNil
              cases hBelow
              exact Or.inl ⟨rfl, rfl⟩
            · exact Or.inr ((ih (hDistinct.of_mem hMem)).mpr ⟨hNil, hBelow⟩)

/-- No place is listed twice. The induction is on the nesting of the tree, with the statement for
the entries of a directory beside that for one entry. -/
theorem nodup_descendants {root : Entry} (hDistinct : root.Distinct) :
    (root.descendants.map Prod.fst).Nodup := by
  revert hDistinct
  refine (Entry.descendants.mutual_induct
    (fun root => root.Distinct → (root.descendants.map Prod.fst).Nodup)
    (fun entries => (directory entries).Distinct → ((listed entries).map Prod.fst).Nodup)
    ?_ ?_ ?_ ?_).1 root
  · intro entries hEntries hDistinct
    exact hEntries hDistinct
  · intro other hOther hDistinct
    cases other with
    | file content => exact List.nodup_nil
    | link target => exact List.nodup_nil
    | directory entries => exact absurd rfl (hOther entries)
  · intro hDistinct
    exact List.nodup_nil
  · intro name entry rest hEntry hRest hDistinct
    obtain ⟨hName, -⟩ := List.nodup_cons.mp (hDistinct [] _ rfl)
    have hEntryNodup := hEntry (hDistinct.of_mem (List.mem_cons_self ..))
    have hNames : (listed ((name, entry) :: rest)).map Prod.fst
        = ([name] :: (entry.descendants.map Prod.fst).map (List.cons name))
          ++ (listed rest).map Prod.fst := by
      simp [listed, Function.comp_def]
    rw [hNames]
    -- below this entry are its name and something after it; what follows begins with other names
    have hHead : ([name] :: (entry.descendants.map Prod.fst).map (List.cons name)).Nodup := by
      refine List.nodup_cons.mpr ⟨?_, hEntryNodup.map List.cons_injective⟩
      intro hMem
      obtain ⟨below, hBelow, hEq⟩ := List.mem_map.mp hMem
      obtain ⟨⟨names, found⟩, hFound, rfl⟩ := List.mem_map.mp hBelow
      have hPlace := (mem_descendants_iff (hDistinct.of_mem (List.mem_cons_self ..))).mp hFound
      exact hPlace.1 (List.cons.inj hEq).2
    refine List.nodup_append.mpr ⟨hHead, hRest hDistinct.of_cons, ?_⟩
    rintro names hLeft others hRight rfl
    have hFirst : names.head? = some name := by
      rcases List.mem_cons.mp hLeft with rfl | hBelow
      · rfl
      · obtain ⟨below, -, rfl⟩ := List.mem_map.mp hBelow
        rfl
    obtain ⟨⟨found, inner⟩, hFound, rfl⟩ := List.mem_map.mp hRight
    obtain ⟨key, child, below, hMem, rfl, -⟩ := mem_listed_iff.mp hFound
    obtain rfl : key = name := by simpa using hFirst
    exact hName (List.mem_map.mpr ⟨(key, child), hMem, rfl⟩)

end SyntaxSurvey.FileSystem.Entry
