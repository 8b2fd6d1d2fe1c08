import SyntaxSurvey.Proofs.FileSystem.Making
import SyntaxSurvey.Proofs.FileSystem.Updating

/-! Making directories in any tree, links followed. Afterwards there is a directory by that path if
and only if making it did not fail. -/

namespace SyntaxSurvey.FileSystem

theorem intercalate_isPrefix_append (separator : List Char) (pieces : List (List Char))
    (last : List Char) :
    separator.intercalate pieces <+: separator.intercalate (pieces ++ [last]) := by
  induction pieces with
  | nil => exact List.nil_prefix
  | cons first rest ih =>
      cases rest with
      | nil => simp [List.intercalate_cons_cons]
      | cons second more =>
          rw [List.cons_append, List.cons_append, List.intercalate_cons_cons,
            List.intercalate_cons_cons]
          exact (List.prefix_append_right_inj _).mpr ih

/-- The text of a path begins with that of its parent. -/
theorem text_isPrefix_append {anchor : Anchor} {init : List String} {name : String}
    (hSome : anchor ≠ .here ∨ init ≠ []) :
    (Path.mk anchor init).text.toList <+: (Path.mk anchor (init ++ [name])).text.toList := by
  rw [Path.toList_text hSome, Path.toList_text (Or.inr (by simp)), List.map_append]
  exact (List.prefix_append_right_inj _).mpr (intercalate_isPrefix_append _ _ _)

/-- A path that is looked up is looked up without its last component, too. -/
theorem refuse?_init {anchor : Anchor} {init : List String} {name : String}
    (hRefuse : refuse? ⟨anchor, init ++ [name]⟩ = none) : refuse? ⟨anchor, init⟩ = none := by
  by_cases hCurrent : anchor = .here ∧ init = []
  · obtain ⟨rfl, rfl⟩ := hCurrent
    decide +kernel
  · have hSome : anchor ≠ .here ∨ init ≠ [] := by
      by_cases hHere : anchor = .here
      · exact Or.inr fun hNil => hCurrent ⟨hHere, hNil⟩
      · exact Or.inl hHere
    obtain ⟨more, hMore⟩ : (Path.mk anchor init).text.toList
        <+: (Path.mk anchor (init ++ [name])).text.toList := text_isPrefix_append hSome
    have hText : (Path.mk anchor (init ++ [name])).text
        = (Path.mk anchor init).text ++ String.ofList more := by
      rw [← String.toList_inj, String.toList_append, String.toList_ofList, hMore]
    rw [refuse?] at hRefuse ⊢
    split at hRefuse
    · cases hRefuse
    rename_i hNoNull
    split at hRefuse
    · cases hRefuse
    rename_i hShort
    rw [hText, String.utf8ByteSize_append] at hShort
    rw [← hMore] at hNoNull
    rw [if_neg, if_neg]
    · omega
    · intro hNull
      simp only [List.contains_append, Bool.or_eq_true, not_or] at hNoNull
      exact hNoNull.1 hNull

variable {fs later : FileSystem} {path : Path}

/-- A directory is found as one exactly if it is what is found. -/
theorem findDirectory_eq_ok {place : Location} :
    fs.findDirectory path = .ok place
      ↔ ∃ entries, fs.find path = .ok (.present place (.directory entries)) := by
  rw [findDirectory]
  constructor
  · intro hFind
    split at hFind
    · rename_i found entries hPresent
      cases hFind
      exact ⟨entries, hPresent⟩
    all_goals cases hFind
  · rintro ⟨entries, hFind⟩
    rw [hFind]

theorem isDirectory_eq_true :
    fs.isDirectory path = .ok true
      ↔ ∃ place entries, fs.find path = .ok (.present place (.directory entries)) := by
  rw [isDirectory, ask_eq_true]
  constructor
  · rintro ⟨place, entry, hFind, hDirectory⟩
    cases entry with
    | directory entries => exact ⟨place, entries, hFind⟩
    | file content => cases hDirectory
    | link target => cases hDirectory
  · rintro ⟨place, entries, hFind⟩
    exact ⟨place, _, hFind, rfl⟩

/-- Where things are retained, a directory is still found by its path. -/
theorem Retains.isDirectory (h : fs.Retains later) (hDirectory : fs.isDirectory path = .ok true) :
    later.isDirectory path = .ok true := by
  obtain ⟨place, entries, hFind⟩ := isDirectory_eq_true.mp hDirectory
  obtain ⟨other, hOther, hAt⟩ := h.find hFind
  have hOld := (find_eq_ok_iff.mp hFind).2.at?
  have hKind := h.root.directory place (Entry.kind?_eq_directory.mpr ⟨entries, hOld⟩)
  obtain ⟨inner, hInner⟩ := Entry.kind?_eq_directory.mp hKind
  obtain rfl : other = .directory inner := Option.some.inj (hAt.symm.trans hInner)
  exact isDirectory_eq_true.mpr ⟨place, inner, hOther⟩

/-- What is found by a path is found in a directory, which is found by the path before the last
component. -/
theorem exists_parent (hHere : fs.Stationed) {anchor : Anchor} {init : List String} {name : String}
    {found : Found} (hFind : fs.find ⟨anchor, init ++ [name]⟩ = .ok found) :
    ∃ goal fewer, fs.findDirectory ⟨anchor, init⟩ = .ok goal
      ∧ Follows fs.root fewer goal [name] found := by
  obtain ⟨hRefuse, hFollows⟩ := find_eq_ok_iff.mp hFind
  obtain ⟨goal, entries, fewer, hInit, hLast⟩ := hFollows.parted (by simp) (hHere.start _)
  exact ⟨goal, fewer,
    findDirectory_eq_ok.mpr ⟨entries, find_eq_ok_iff.mpr ⟨refuse?_init hRefuse, hInit⟩⟩, hLast⟩

/-- Where there is something, no directory is made. -/
theorem makeDirectory_of_present (hHere : fs.Stationed) (hPath : path.Normal) {place : Location}
    {entry : Entry} (hFind : fs.find path = .ok (.present place entry)) :
    fs.makeDirectory path = .error ⟨.alreadyExists, path⟩ := by
  have hRefuse := (find_eq_ok_iff.mp hFind).1
  rw [makeDirectory]
  cases hLast : path.parts.getLast? with
  | none => simp only [hRefuse]
  | some name =>
      obtain ⟨anchor, parts⟩ := path
      obtain ⟨init, rfl⟩ := List.getLast?_eq_some_iff.mp hLast
      have hName := hPath name (by simp)
      obtain ⟨goal, fewer, hDirectory, hFollows⟩ := exists_parent hHere hFind
      have hParent : (Path.mk anchor (init ++ [name])).parent = ⟨anchor, init⟩ := by
        simp [Path.parent]
      simp only [hRefuse, hParent, hDirectory, ← Entry.at?_concat]
      have hListed (hNotParent : name ≠ "..") : name.utf8ByteSize ≤ longestName
          ∧ ∃ listed, fs.root.at? (goal ++ [name]) = some listed := by
        cases hFollows with
        | stay hStay =>
            rcases hStay with hSelf | hMark
            · exact absurd hSelf hName.notSelf
            · exact absurd hMark hName.nonempty
        | up => exact absurd rfl hNotParent
        | into hPart hKind =>
            obtain ⟨entries, hAt⟩ := Entry.kind?_eq_directory.mp hKind
            exact ⟨hPart.short, _, hAt⟩
        | file hPart hAt => exact ⟨hPart.short, _, hAt⟩
        | link hPart hAt => exact ⟨hPart.short, _, hAt⟩
      by_cases hNotParent : name = ".."
      · rw [if_pos hNotParent]
      · obtain ⟨hShort, listed, hAt⟩ := hListed hNotParent
        rw [if_neg hNotParent, if_neg (Nat.not_lt.mpr hShort), hAt]

/-- A directory that was made is found by its path. -/
theorem makeDirectory_found (hPath : path.Normal) (hMake : fs.makeDirectory path = .ok later) :
    fs.Retains later
      ∧ ∃ place entries, later.find path = .ok (.present place (.directory entries)) := by
  obtain ⟨init, name, directory, hParts, hName, hShort, hRefuse, hFind, hFree, rfl⟩ :=
    makeDirectory_cases hPath hMake
  obtain ⟨entries, hParent⟩ := findDirectory_eq_ok.mp hFind
  have hKind : fs.root.kind? directory = some .directory :=
    Entry.kind?_eq_directory.mpr ⟨entries, (find_eq_ok_iff.mp hParent).2.at?⟩
  have hNoDirectory : fs.root.kind? (directory ++ [name]) ≠ some .directory := by simp [hFree]
  have hPut := Entry.kind?_put Entry.isLeaf_directory hKind hNoDirectory
  have hKept : fs.root.KeptIn (fs.root.put (directory ++ [name]) (.directory [])) := by
    intro place kind hOld
    rw [hPut place, if_neg, hOld]
    rintro rfl
    simp [hFree] at hOld
  have hRetains : fs.Retains { fs with root := fs.root.put (directory ++ [name]) (.directory []) } :=
    ⟨rfl, hKept.retains⟩
  have hNew : (fs.root.put (directory ++ [name]) (.directory [])).kind? (directory ++ [name])
      = some .directory := by
    rw [hPut, if_pos rfl]
    rfl
  obtain ⟨inner, hInner⟩ := Entry.kind?_eq_directory.mp hNew
  obtain ⟨other, hOther, hAt⟩ := hRetains.find hParent
  obtain ⟨old, hOld⟩ := Entry.kind?_eq_directory.mp (hRetains.root.directory _ hKind)
  obtain rfl : other = .directory old := Option.some.inj (hAt.symm.trans hOld)
  have hEntered : IsEntered name := ⟨hName.notSelf, hName.nonempty, hName.notParent, hShort⟩
  have hFollows := (find_eq_ok_iff.mp hOther).2.append (.into hEntered hNew (.here hInner))
  refine ⟨hRetains, directory ++ [name], inner, find_eq_ok_iff.mpr ⟨hRefuse, ?_⟩⟩
  rw [hParts]
  exact hFollows

/-- A directory that stands after the attempt to make it is found by its path, and nothing else was
lost. -/
theorem Stands.found (hPath : path.Normal) (h : fs.Stands path later) :
    fs.Retains later
      ∧ ∃ place entries, later.find path = .ok (.present place (.directory entries)) := by
  rcases h with hMake | ⟨failure, hMake, hNone, rfl⟩
  · exact makeDirectory_found hPath hMake
  · have hFind := objection?_eq_none hNone
    rw [makeDirectory_error hMake] at hFind
    exact ⟨.refl _, hFind⟩

/-- A failure that is objected to leaves no directory. -/
theorem not_directory_of_objection (hHere : fs.Stationed) (hPath : path.Normal)
    {failure other : Failure} (hMake : fs.makeDirectory path = .error failure)
    (hObjection : fs.objection? failure = some other) : fs.isDirectory path ≠ .ok true := by
  intro hDirectory
  obtain ⟨place, entries, hFind⟩ := isDirectory_eq_true.mp hDirectory
  rw [makeDirectory_of_present hHere hPath hFind, Except.error.injEq] at hMake
  subst hMake
  simp [objection?, hDirectory] at hObjection

/-- The parent of a directory is a directory. -/
theorem isDirectory_init (hHere : fs.Stationed) {depth : Nat}
    (hDirectory : fs.isDirectory ⟨path.anchor, path.parts.take (depth + 1)⟩ = .ok true) :
    fs.isDirectory ⟨path.anchor, path.parts.take depth⟩ = .ok true := by
  rw [List.take_add_one] at hDirectory
  cases hLast : path.parts[depth]? with
  | none => simpa [hLast] using hDirectory
  | some name =>
      rw [hLast] at hDirectory
      obtain ⟨place, entries, hFind⟩ := isDirectory_eq_true.mp hDirectory
      obtain ⟨goal, fewer, hParent, -⟩ := exists_parent hHere hFind
      obtain ⟨inner, hInner⟩ := findDirectory_eq_ok.mp hParent
      exact isDirectory_eq_true.mpr ⟨goal, inner, hInner⟩

/-- Directories that were made are there. -/
theorem makeDirectoriesTo_found (hPath : path.Normal) {depth : Nat}
    (hMake : fs.makeDirectoriesTo path depth = (later, none)) :
    fs.Retains later
      ∧ later.isDirectory ⟨path.anchor, path.parts.take depth⟩ = .ok true := by
  induction depth generalizing later with
  | zero =>
      rcases makeDirectoriesTo_cases hMake with hStands | ⟨before, middle, hDepth, -, -⟩
      · obtain ⟨hRetains, hFind⟩ := hStands.found (hPath.take 0)
        exact ⟨hRetains, isDirectory_eq_true.mpr hFind⟩
      · cases hDepth
  | succ depth ih =>
      rcases makeDirectoriesTo_cases hMake with hStands | ⟨before, middle, hDepth, hBefore, hStands⟩
      · obtain ⟨hRetains, hFind⟩ := hStands.found (hPath.take (depth + 1))
        exact ⟨hRetains, isDirectory_eq_true.mpr hFind⟩
      · cases hDepth
        obtain ⟨hMiddle, -⟩ := ih hBefore
        obtain ⟨hRetains, hFind⟩ := hStands.found (hPath.take (depth + 1))
        exact ⟨hMiddle.trans hRetains, isDirectory_eq_true.mpr hFind⟩

/-- Where making directories fails, there is no directory, and yet nothing is lost. -/
theorem makeDirectoriesTo_failed (hHere : fs.Stationed) (hPath : path.Normal) {depth : Nat}
    {failure : Failure} (hMake : fs.makeDirectoriesTo path depth = (later, some failure)) :
    fs.Retains later
      ∧ later.isDirectory ⟨path.anchor, path.parts.take depth⟩ ≠ .ok true := by
  induction depth generalizing later failure with
  | zero =>
      rw [makeDirectoriesTo] at hMake
      cases hStep : fs.makeDirectory ⟨path.anchor, []⟩ with
      | ok made => simp [hStep] at hMake
      | error first =>
          simp only [hStep, Prod.mk.injEq] at hMake
          obtain ⟨rfl, hObjection⟩ := hMake
          exact ⟨.refl _, not_directory_of_objection hHere (hPath.take 0) hStep hObjection⟩
  | succ depth ih =>
      rw [makeDirectoriesTo] at hMake
      cases hStep : fs.makeDirectory ⟨path.anchor, path.parts.take (depth + 1)⟩ with
      | ok made => simp [hStep] at hMake
      | error first =>
          simp only [hStep] at hMake
          split at hMake
          · cases hBefore : fs.makeDirectoriesTo path depth with
            | mk middle trouble =>
                cases trouble with
                | some other =>
                    simp only [hBefore, Prod.mk.injEq] at hMake
                    obtain ⟨rfl, -⟩ := hMake
                    obtain ⟨hRetains, hNone⟩ := ih hBefore
                    exact ⟨hRetains, fun hDirectory =>
                      hNone (isDirectory_init (hRetains.stationed hHere) hDirectory)⟩
                | none =>
                    obtain ⟨hRetains, -⟩ := makeDirectoriesTo_found hPath hBefore
                    simp only [hBefore] at hMake
                    cases hAgain : middle.makeDirectory
                        ⟨path.anchor, path.parts.take (depth + 1)⟩ with
                    | ok made => simp [hAgain] at hMake
                    | error second =>
                        simp only [hAgain, Prod.mk.injEq] at hMake
                        obtain ⟨rfl, hObjection⟩ := hMake
                        refine ⟨hRetains, fun hDirectory => ?_⟩
                        obtain ⟨place, entries, hFind⟩ := isDirectory_eq_true.mp hDirectory
                        have hExists := makeDirectory_of_present (hRetains.stationed hHere)
                          (hPath.take (depth + 1)) hFind
                        rw [hExists, Except.error.injEq] at hAgain
                        subst hAgain
                        simp [objection?, hDirectory] at hObjection
          · simp only [Prod.mk.injEq] at hMake
            obtain ⟨rfl, hObjection⟩ := hMake
            exact ⟨.refl _,
              not_directory_of_objection hHere (hPath.take (depth + 1)) hStep hObjection⟩

/-- Making a directory and those that lead to it keeps all that was there, and it fails if and only
if there is no such directory afterwards. -/
theorem makeDirectories_eq_none_iff (hHere : fs.Stationed) (hPath : path.Normal) :
    fs.Retains (fs.makeDirectories path).1
      ∧ ((fs.makeDirectories path).2 = none
        ↔ (fs.makeDirectories path).1.isDirectory path = .ok true) := by
  cases hMake : fs.makeDirectories path with
  | mk later trouble =>
      have hTake : Path.mk path.anchor (path.parts.take path.parts.length) = path := by
        rw [List.take_length]
      rw [makeDirectories] at hMake
      cases trouble with
      | none =>
          obtain ⟨hRetains, hDirectory⟩ := makeDirectoriesTo_found hPath hMake
          rw [hTake] at hDirectory
          exact ⟨hRetains, by simp [hDirectory]⟩
      | some failure =>
          obtain ⟨hRetains, hDirectory⟩ := makeDirectoriesTo_failed hHere hPath hMake
          rw [hTake] at hDirectory
          exact ⟨hRetains, by simp [hDirectory]⟩

/-- Unless the parent is missing, what keeps a directory from being made decides at once. -/
theorem makeDirectoriesTo_of_error {depth : Nat} {failure : Failure}
    (hMake : fs.makeDirectory ⟨path.anchor, path.parts.take depth⟩ = .error failure)
    (hCause : failure.cause ≠ .notFound) :
    fs.makeDirectoriesTo path depth = (fs, fs.objection? failure) := by
  cases depth with
  | zero =>
      rw [List.take_zero] at hMake
      rw [makeDirectoriesTo, hMake]
  | succ depth =>
      rw [makeDirectoriesTo]
      simp only [hMake, hCause, if_false]

/-- Where there is something, the only question is whether it is a directory. -/
theorem makeDirectories_of_present (hHere : fs.Stationed) (hPath : path.Normal) {place : Location}
    {entry : Entry} (hFind : fs.find path = .ok (.present place entry)) :
    fs.makeDirectories path = (fs, fs.objection? ⟨.alreadyExists, path⟩) := by
  have hMake : fs.makeDirectory ⟨path.anchor, path.parts.take path.parts.length⟩
      = .error ⟨.alreadyExists, path⟩ := by
    rw [List.take_length]
    exact makeDirectory_of_present hHere hPath hFind
  rw [makeDirectories, makeDirectoriesTo_of_error hMake (by simp)]

/-- No directory is made where there is a file. -/
theorem makeDirectories_of_file (hHere : fs.Stationed) (hPath : path.Normal)
    (hFile : fs.isFile path = .ok true) :
    (fs.makeDirectories path).2 = some ⟨.alreadyExists, path⟩ := by
  obtain ⟨place, content, hFind⟩ := isFile_eq_true.mp hFile
  have hDirectory : fs.isDirectory path = .ok false := by rw [isDirectory, ask, hFind]
  simp [makeDirectories_of_present hHere hPath hFind, objection?, hDirectory]

/-- Where there is a directory, none is made. -/
theorem makeDirectories_of_directory (hHere : fs.Stationed) (hPath : path.Normal)
    (hDirectory : fs.isDirectory path = .ok true) : fs.makeDirectories path = (fs, none) := by
  obtain ⟨place, entries, hFind⟩ := isDirectory_eq_true.mp hDirectory
  simp [makeDirectories_of_present hHere hPath hFind, objection?, hDirectory]

/-- A file is listed in a directory, which is found by its parent. A path without components is that
of a directory. -/
theorem isDirectory_parent (hHere : fs.Stationed) (hFile : fs.isFile path = .ok true) :
    fs.isDirectory path.parent = .ok true := by
  obtain ⟨place, content, hFind⟩ := isFile_eq_true.mp hFile
  obtain ⟨anchor, parts⟩ := path
  cases hLast : parts.getLast? with
  | none =>
      obtain rfl := List.getLast?_eq_none_iff.mp hLast
      obtain ⟨-, hFollows⟩ := find_eq_ok_iff.mp hFind
      cases hFollows with
      | here hAt =>
          obtain ⟨entries, hStart⟩ := Entry.kind?_eq_directory.mp (hHere.start ⟨anchor, []⟩)
          simp [hStart] at hAt
  | some name =>
      obtain ⟨init, rfl⟩ := List.getLast?_eq_some_iff.mp hLast
      obtain ⟨goal, fewer, hParent, -⟩ := exists_parent hHere hFind
      obtain ⟨entries, hInit⟩ := findDirectory_eq_ok.mp hParent
      have hPath : (Path.mk anchor (init ++ [name])).parent = ⟨anchor, init⟩ := by
        simp [Path.parent]
      rw [hPath]
      exact isDirectory_eq_true.mpr ⟨goal, entries, hInit⟩

end SyntaxSurvey.FileSystem
