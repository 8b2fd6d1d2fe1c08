import SyntaxSurvey.Proofs.FileSystem.Following

/-! Changing files in any tree, links followed. A file that was changed or made is found by its path
afterwards, whatever links lead there, and what was found by another path still is. -/

namespace SyntaxSurvey.FileSystem

/-- Whatever a path is looked up for, what is found is what its components lead to. -/
theorem follows_of_findFor {fs : FileSystem} {aim : Aim} {path : Path} {found : Found}
    (hFind : fs.findFor aim path = .ok found) :
    refuse? path = none ∧ Follows fs.root mostLinks (fs.start path) path.parts found := by
  rw [findFor] at hFind
  cases hRefuse : refuse? path with
  | some cause => simp [hRefuse] at hFind
  | none =>
      simp only [hRefuse] at hFind
      exact ⟨rfl, follows_of_walk hFind⟩

theorem find_eq_ok_iff {fs : FileSystem} {path : Path} {found : Found} :
    fs.find path = .ok found
      ↔ refuse? path = none ∧ Follows fs.root mostLinks (fs.start path) path.parts found := by
  refine ⟨follows_of_findFor, ?_⟩
  rintro ⟨hRefuse, hFollows⟩
  rw [find, findFor, hRefuse]
  exact hFollows.walk_eq

/-- A question is answered with yes if an entry is found of which that is true. -/
theorem ask_eq_true {fs : FileSystem} {path : Path} {question : Entry → Bool} :
    fs.ask path question = .ok true
      ↔ ∃ place entry, fs.find path = .ok (.present place entry) ∧ question entry = true := by
  rw [ask]
  constructor
  · intro hAsk
    split at hAsk
    · rename_i place entry hFind
      exact ⟨place, entry, hFind, Except.ok.inj hAsk⟩
    all_goals cases hAsk
  · rintro ⟨place, entry, hFind, hQuestion⟩
    rw [hFind, ← hQuestion]

theorem isFile_eq_true {fs : FileSystem} {path : Path} :
    fs.isFile path = .ok true
      ↔ ∃ place content, fs.find path = .ok (.present place (.file content)) := by
  rw [isFile, ask_eq_true]
  constructor
  · rintro ⟨place, entry, hFind, hFile⟩
    cases entry with
    | file content => exact ⟨place, content, hFind⟩
    | directory entries => cases hFile
    | link target => cases hFile
  · rintro ⟨place, content, hFind⟩
    exact ⟨place, _, hFind, rfl⟩

/-- The current directory is one. -/
def Stationed (fs : FileSystem) : Prop :=
  fs.root.kind? fs.here = some .directory

/-- Paths start from a directory. -/
theorem Stationed.start {fs : FileSystem} (h : fs.Stationed) (path : Path) :
    fs.root.kind? (fs.start path) = some .directory := by
  rw [FileSystem.start]
  split
  · exact h
  · have hWhole : fs.root.kind? ([] ++ fs.here) = some .directory := h
    exact Entry.directory_of_append hWhole

/-- A tree that retains another one, with the same current directory. -/
structure Retains (fs later : FileSystem) : Prop where
  here : later.here = fs.here
  root : fs.root.Retains later.root

namespace Retains

variable {fs middle later : FileSystem}

theorem refl (fs : FileSystem) : fs.Retains fs :=
  ⟨rfl, (Entry.KeptIn.refl fs.root).retains⟩

/-- What is retained later still is retained. -/
theorem trans (h : fs.Retains middle) (h' : middle.Retains later) : fs.Retains later where
  here := h'.here.trans h.here
  root := {
    directory place hKind := h'.root.directory place (h.root.directory place hKind)
    link place target hKind := h'.root.link place target (h.root.link place target hKind)
    file place content hKind := by
      obtain ⟨other, hOther⟩ := h.root.file place content hKind
      exact h'.root.file place other hOther }

theorem start_eq (h : fs.Retains later) (path : Path) : later.start path = fs.start path := by
  rw [start, start, h.here]

theorem stationed (h : fs.Retains later) (hHere : fs.Stationed) : later.Stationed := by
  rw [Stationed, h.here]
  exact h.root.directory _ hHere

/-- What is found by a path is found by it at the same place in a tree that retains this one. -/
theorem find (h : fs.Retains later) {path : Path} {place : Location} {entry : Entry}
    (hFind : fs.find path = .ok (.present place entry)) :
    ∃ other, later.find path = .ok (.present place other) ∧ later.root.at? place = some other := by
  obtain ⟨hRefuse, hFollows⟩ := find_eq_ok_iff.mp hFind
  obtain ⟨other, hOther⟩ := hFollows.retained h.root
  rw [← h.start_eq] at hOther
  exact ⟨other, find_eq_ok_iff.mpr ⟨hRefuse, hOther⟩, hOther.at?⟩

/-- Where things are retained, a file is still found by its path. -/
theorem isFile (h : fs.Retains later) {path : Path} (hFile : fs.isFile path = .ok true) :
    later.isFile path = .ok true := by
  obtain ⟨place, content, hFind⟩ := isFile_eq_true.mp hFile
  obtain ⟨other, hOther, hAt⟩ := h.find hFind
  have hOld := (find_eq_ok_iff.mp hFind).2.at?
  obtain ⟨bytes, hBytes⟩ := h.root.file place content (Entry.kind?_eq_file.mpr hOld)
  obtain rfl : other = .file bytes :=
    Option.some.inj (hAt.symm.trans (Entry.kind?_eq_file.mp hBytes))
  exact isFile_eq_true.mpr ⟨place, bytes, hOther⟩

end Retains

/-- A file system in which one file has other bytes, or is new. -/
structure Updated (fs : FileSystem) (place : Location) (content : List UInt8)
    (later : FileSystem) : Prop where
  here : later.here = fs.here
  kind? : ∀ other, later.root.kind? other
    = if other = place then some (.file content) else fs.root.kind? other
  unlisted : fs.root.kind? place = none ∨ ∃ old, fs.root.kind? place = some (.file old)

/-- Nothing is lost when a file is written. -/
theorem Updated.retains {fs later : FileSystem} {place : Location} {content : List UInt8}
    (h : Updated fs place content later) : fs.Retains later where
  here := h.here
  root := by
    have hKept (other : Location) (hOther : fs.root.kind? other ≠ none)
        (hNoFile : ∀ old, fs.root.kind? other ≠ some (.file old)) :
        later.root.kind? other = fs.root.kind? other := by
      rw [h.kind?, if_neg]
      rintro rfl
      rcases h.unlisted with hNone | ⟨old, hOld⟩
      · exact hOther hNone
      · exact hNoFile old hOld
    refine ⟨fun other hKind => ?_, fun other target hKind => ?_, fun other old hKind => ?_⟩
    · rw [hKept other (by simp [hKind]) (by simp [hKind]), hKind]
    · rw [hKept other (by simp [hKind]) (by simp [hKind]), hKind]
    · rw [h.kind?]
      split
      · exact ⟨content, rfl⟩
      · exact ⟨old, hKind⟩

/-- A file that was there before has only other bytes by now, so nothing is new. -/
theorem Updated.retained {fs later : FileSystem} {place : Location} {content : List UInt8}
    (h : Updated fs place content later) {old : List UInt8}
    (hOld : fs.root.kind? place = some (.file old)) : later.Retains fs where
  here := h.here.symm
  root := by
    refine ⟨fun other hKind => ?_, fun other target hKind => ?_, fun other bytes hKind => ?_⟩
    all_goals rw [h.kind?] at hKind
    · split at hKind
      · cases hKind
      · exact hKind
    · split at hKind
      · cases hKind
      · exact hKind
    · split at hKind
      · rename_i hPlace
        exact ⟨old, hPlace ▸ hOld⟩
      · exact ⟨bytes, hKind⟩

/-- A file that was changed or made is found by its path, with its new bytes, and nothing else has
changed. -/
theorem update_ok {fs later : FileSystem} (hHere : fs.Stationed) {path : Path}
    {change : List UInt8 → List UInt8} (hUpdate : fs.update path change = .ok later) :
    ∃ place old, Updated fs place (change old) later
      ∧ later.find path = .ok (.present place (.file (change old)))
      ∧ (fs.root.kind? place = some (.file old) ∨ fs.root.kind? place = none ∧ old = []) := by
  rw [update] at hUpdate
  split at hUpdate
  · rename_i place old hFind
    cases hUpdate
    obtain ⟨hRefuse, hFollows⟩ := follows_of_findFor hFind
    have hOld := Entry.kind?_eq_file.mpr hFollows.at?
    have hSome : place ≠ [] := by
      rintro rfl
      have hWhole : fs.root.kind? ([] ++ fs.here) = some .directory := hHere
      rw [Entry.directory_of_append hWhole] at hOld
      cases hOld
    obtain ⟨parent, name, rfl⟩ : ∃ parent name, place = parent ++ [name] :=
      ⟨_, _, (List.dropLast_concat_getLast hSome).symm⟩
    obtain ⟨entries, hParent, -⟩ := Entry.directory_of_at?_concat hFollows.at?
    have hUpdated : Updated fs (parent ++ [name]) (change old)
        { fs with root := fs.root.put (parent ++ [name]) (.file (change old)) } :=
      ⟨rfl, Entry.kind?_put (Entry.isLeaf_file _) (Entry.kind?_eq_directory.mpr ⟨entries, hParent⟩)
        (by simp [hOld]), Or.inr ⟨old, hOld⟩⟩
    have hSeen : fs.find path = .ok (.present (parent ++ [name]) (.file old)) :=
      find_eq_ok_iff.mpr ⟨hRefuse, hFollows⟩
    obtain ⟨other, hOther, hAt⟩ := hUpdated.retains.find hSeen
    have hNew := Entry.kind?_eq_file.mp ((hUpdated.kind? (parent ++ [name])).trans (if_pos rfl))
    obtain rfl : other = .file (change old) := Option.some.inj (hAt.symm.trans hNew)
    exact ⟨_, old, hUpdated, hOther, Or.inl hOld⟩
  · cases hUpdate
  · rename_i directory name hFind
    cases hUpdate
    obtain ⟨hRefuse, hFollows⟩ := follows_of_findFor hFind
    obtain ⟨hParent, hNone⟩ := hFollows.absent_cases (hHere.start path)
    have hOld := Entry.kind?_eq_none.mpr hNone
    have hUpdated : Updated fs (directory ++ [name]) (change [])
        { fs with root := fs.root.put (directory ++ [name]) (.file (change [])) } :=
      ⟨rfl, Entry.kind?_put (Entry.isLeaf_file _) hParent (by simp [hOld]), Or.inl hOld⟩
    have hNew := Entry.kind?_eq_file.mp ((hUpdated.kind? (directory ++ [name])).trans (if_pos rfl))
    have hFilled := hFollows.filled hUpdated.retains.root hNew
    rw [← hUpdated.retains.start_eq] at hFilled
    exact ⟨_, [], hUpdated, find_eq_ok_iff.mpr ⟨hRefuse, hFilled⟩, Or.inr ⟨hOld, rfl⟩⟩
  · cases hUpdate

/-- A file that cannot be changed is none, and nothing has changed. -/
theorem not_isFile_of_update {fs : FileSystem} (hHere : fs.Stationed) {path : Path}
    {change : List UInt8 → List UInt8} {failure : Failure}
    (hUpdate : fs.update path change = .error failure) : fs.isFile path ≠ .ok true := by
  intro hFile
  obtain ⟨place, content, hFind⟩ := isFile_eq_true.mp hFile
  obtain ⟨hRefuse, hFollows⟩ := find_eq_ok_iff.mp hFind
  have hMaking : fs.findFor .making path = .ok (.present place (.file content)) := by
    rw [findFor, hRefuse]
    exact hFollows.walk_making (hHere.start path)
  simp [update, hMaking] at hUpdate

/-- A change of a file that is there makes no other one. -/
theorem retained_of_update {fs later : FileSystem} (hHere : fs.Stationed) {path : Path}
    {change : List UInt8 → List UInt8} (hUpdate : fs.update path change = .ok later)
    (hFile : fs.isFile path = .ok true) : later.Retains fs := by
  obtain ⟨place, old, hUpdated, hLater, -⟩ := update_ok hHere hUpdate
  obtain ⟨before, content, hFind⟩ := isFile_eq_true.mp hFile
  obtain ⟨other, hOther, -⟩ := hUpdated.retains.find hFind
  rw [hLater] at hOther
  cases hOther
  exact hUpdated.retained (Entry.kind?_eq_file.mpr (find_eq_ok_iff.mp hFind).2.at?)

end SyntaxSurvey.FileSystem
