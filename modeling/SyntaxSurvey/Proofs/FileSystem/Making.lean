import SyntaxSurvey.FileSystem.Operations
import SyntaxSurvey.Proofs.FileSystem.Lookup

/-! Making a directory and those that lead to it. Everything that stood somewhere stays, and what is
added are directories, each at a place that the first names of the path lead to. A path that goes
up again leaves directories behind that are not on the way to its end. -/

open SyntaxSurvey.Path (IsPart)

namespace SyntaxSurvey.FileSystem

theorem lexicalPlace_concat {place : Location} {names : List String} {name : String}
    (hName : name ≠ "..") :
    lexicalPlace place (names ++ [name]) = lexicalPlace place names ++ [name] := by
  simp [lexicalPlace, hName]

/-- The place of a path that never goes up has all its names at the end. -/
theorem lexicalPlace_of_no_parent {place : Location} {names : List String}
    (hNames : ".." ∉ names) : lexicalPlace place names = place ++ names := by
  induction names generalizing place with
  | nil => simp [lexicalPlace]
  | cons name rest ih =>
      obtain ⟨hName, hRest⟩ := not_or.mp (fun hMem => hNames (List.mem_cons.mpr hMem))
      have hStep : lexicalPlace (place ++ [name]) rest = place ++ [name] ++ rest := ih hRest
      simpa [lexicalPlace, Ne.symm hName] using hStep

/-- The place that is meant by a path depends on the file system through the current directory. -/
theorem absolute_congr {fs later : FileSystem} (hHere : later.here = fs.here) (path : Path) :
    later.absolute path = fs.absolute path := by
  rw [absolute, absolute, start, start, hHere]

/-- The file system after some of the directories on the way of a path were made. -/
structure Made (fs : FileSystem) (path : Path) (later : FileSystem) : Prop where
  here : later.here = fs.here
  plain : later.root.Plain
  kept : fs.root.KeptIn later.root
  added : ∀ place, fs.root.kind? place = none → later.root.kind? place = none
    ∨ later.root.kind? place = some .directory
      ∧ ∃ depth ≤ path.parts.length,
          place = lexicalPlace (fs.start path) (path.parts.take depth)

namespace Made

variable {fs middle later : FileSystem} {path : Path}

theorem refl (hPlain : fs.root.Plain) : Made fs path fs :=
  ⟨rfl, hPlain, .refl fs.root, fun _ hNone => Or.inl hNone⟩

theorem start_eq (h : Made fs path later) (other : Path) : later.start other = fs.start other := by
  rw [start, start, h.here]

/-- Making a directory twice over is making it. -/
theorem trans (h : Made fs path middle) (h' : Made middle path later) : Made fs path later where
  here := h'.here.trans h.here
  plain := h'.plain
  kept := h.kept.trans h'.kept
  added place hNone := by
    rcases h.added place hNone with hStill | ⟨hKind, hWay⟩
    · rw [← h.start_eq path]
      exact h'.added place hStill
    · exact Or.inr ⟨h'.kept place _ hKind, hWay⟩

/-- What is made on the way of the first names of a path is made on the way of the path. -/
theorem of_take {depth : Nat} (h : Made fs ⟨path.anchor, path.parts.take depth⟩ later) :
    Made fs path later where
  here := h.here
  plain := h.plain
  kept := h.kept
  added place hNone := by
    rcases h.added place hNone with hStill | ⟨hKind, shorter, hShorter, hPlace⟩
    · exact Or.inl hStill
    · refine Or.inr ⟨hKind, min shorter depth, ?_, ?_⟩
      · have hLength : shorter ≤ path.parts.length :=
          Nat.le_trans hShorter (List.length_take_le' depth path.parts)
        exact Nat.le_trans (Nat.min_le_left shorter depth) hLength
      · rw [hPlace, List.take_take]
        rfl

end Made

/-- What is true when one directory was made. -/
theorem makeDirectory_cases {fs later : FileSystem} {path : Path} (hPath : path.Normal)
    (hMake : fs.makeDirectory path = .ok later) :
    ∃ init name directory, path.parts = init ++ [name] ∧ IsName name
      ∧ name.utf8ByteSize ≤ longestName ∧ refuse? path = none
      ∧ fs.findDirectory ⟨path.anchor, init⟩ = .ok directory
      ∧ fs.root.kind? (directory ++ [name]) = none
      ∧ later = { fs with root := fs.root.put (directory ++ [name]) (.directory []) } := by
  rw [makeDirectory] at hMake
  cases hRefuse : refuse? path with
  | some cause => simp [hRefuse] at hMake
  | none =>
      cases hLast : path.parts.getLast? with
      | none => simp [hRefuse, hLast] at hMake
      | some name =>
          obtain ⟨init, hParts⟩ := List.getLast?_eq_some_iff.mp hLast
          have hParent : path.parent = ⟨path.anchor, init⟩ := by simp [Path.parent, hParts]
          simp only [hRefuse, hLast, hParent] at hMake
          cases hFind : fs.findDirectory ⟨path.anchor, init⟩ with
          | error cause => simp [hFind] at hMake
          | ok directory =>
              simp only [hFind] at hMake
              split at hMake
              · cases hMake
              rename_i hNotParent
              split at hMake
              · cases hMake
              rename_i hShort
              split at hMake
              · cases hMake
              rename_i hFree
              cases hMake
              refine ⟨init, name, directory, hParts, ⟨hPath name (by simp [hParts]), hNotParent⟩,
                Nat.le_of_not_lt hShort, rfl, hFind, ?_, rfl⟩
              rw [Entry.kind?_eq_none, Entry.at?_concat, hFree]

/-- A failure to make a directory is about its path. -/
theorem makeDirectory_error {fs : FileSystem} {path : Path} {failure : Failure}
    (hMake : fs.makeDirectory path = .error failure) : failure.path = path := by
  rw [makeDirectory] at hMake
  repeat' split at hMake
  all_goals cases hMake
  all_goals rfl

/-- A directory that was made stands at the place of its path. -/
theorem makeDirectory_ok {fs later : FileSystem} (hPlain : fs.root.Plain) {path : Path}
    (hPath : path.Normal) (hMake : fs.makeDirectory path = .ok later) :
    Made fs path later ∧ ∃ place entries, later.find path
      = .ok (.present place (.directory entries)) := by
  obtain ⟨init, name, directory, hParts, hName, hShort, hRefuse, hFind, hFree, hLater⟩ :=
    makeDirectory_cases hPath hMake
  have hInit : (Path.mk path.anchor init).Normal :=
    fun part hPart => hPath part (by rw [hParts]; exact List.mem_append_left _ hPart)
  obtain ⟨-, inner, hLeads⟩ := (findDirectory_eq_ok_iff hPlain hInit).mp hFind
  have hKind : fs.root.kind? directory = some .directory :=
    Entry.kind?_eq_directory.mpr ⟨inner, hLeads.at?⟩
  have hNoDirectory : fs.root.kind? (directory ++ [name]) ≠ some .directory := by simp [hFree]
  have hPut := Entry.kind?_put Entry.isLeaf_directory hKind hNoDirectory
  have hPlace : lexicalPlace (fs.start path) path.parts = directory ++ [name] := by
    have hGoal : directory = lexicalPlace (fs.start path) init := hLeads.goal_eq
    rw [hParts, lexicalPlace_concat hName.notParent, hGoal]
  have hMade : Made fs path later := by
    subst hLater
    refine ⟨rfl, hPlain.put (Entry.plain_directory (by simp) (by simp) (by simp)) hName hKind,
      ?_, ?_⟩
    · intro place kind hOld
      rw [hPut place, if_neg, hOld]
      rintro rfl
      simp [hFree] at hOld
    · intro place hNone
      by_cases hNew : place = directory ++ [name]
      · refine Or.inr ⟨by simp [hPut, hNew, Entry.kind], path.parts.length, Nat.le_refl _, ?_⟩
        rw [List.take_length, hPlace, hNew]
      · exact Or.inl (by simp [hPut, hNew, hNone])
  obtain ⟨found, hParent, hFound⟩ := hLeads.keep hMade.kept
  have hNew : later.root.kind? (directory ++ [name]) = some .directory := by
    simp [hLater, hPut, Entry.kind]
  obtain ⟨entries, hAt⟩ := Entry.kind?_eq_directory.mp hNew
  cases found with
  | file content => cases hFound
  | link target => cases hFound
  | directory old =>
      have hPath' := hParent.append (.into hName.notParent hShort hNew (.here hAt))
      refine ⟨hMade, directory ++ [name], entries,
        (findFor_eq_present_iff hMade.plain hPath).mpr ⟨hRefuse, ?_⟩⟩
      rw [hMade.start_eq, hParts]
      exact hPath'

/-- Where there is no objection, a directory stands already. -/
theorem objection?_eq_none {fs : FileSystem} {failure : Failure}
    (hNone : fs.objection? failure = none) :
    ∃ place entries, fs.find failure.path = .ok (.present place (.directory entries)) := by
  rw [objection?] at hNone
  split at hNone
  · cases hNone
  · rw [isDirectory, ask] at hNone
    cases hFind : fs.find failure.path with
    | error cause => cases cause <;> simp [hFind] at hNone
    | ok found =>
        cases found with
        | absent directory name => simp [hFind] at hNone
        | present place entry =>
            cases entry with
            | file content => simp [hFind] at hNone
            | link target => simp [hFind] at hNone
            | directory entries => exact ⟨place, entries, rfl⟩

/-- A step that made a directory, or failed because there is one. -/
def Stands (fs : FileSystem) (path : Path) (later : FileSystem) : Prop :=
  fs.makeDirectory path = .ok later
    ∨ ∃ failure, fs.makeDirectory path = .error failure ∧ fs.objection? failure = none ∧ later = fs

/-- In a plain tree, a directory that stands has been made, as have those above it. -/
theorem Stands.made {fs later : FileSystem} (hPlain : fs.root.Plain) {path : Path}
    (hPath : path.Normal) (h : fs.Stands path later) :
    Made fs path later ∧ ∃ place entries, later.find path
      = .ok (.present place (.directory entries)) := by
  rcases h with hMake | ⟨failure, hMake, hNone, rfl⟩
  · exact makeDirectory_ok hPlain hPath hMake
  · have hFind := objection?_eq_none hNone
    rw [makeDirectory_error hMake] at hFind
    exact ⟨.refl hPlain, hFind⟩

/-- Making the first directories on the way succeeds by a single step, or by those before it and
then that step. -/
theorem makeDirectoriesTo_cases {fs later : FileSystem} {path : Path} {depth : Nat}
    (hMake : fs.makeDirectoriesTo path depth = (later, none)) :
    fs.Stands ⟨path.anchor, path.parts.take depth⟩ later
      ∨ ∃ before middle, depth = before + 1 ∧ fs.makeDirectoriesTo path before = (middle, none)
        ∧ middle.Stands ⟨path.anchor, path.parts.take depth⟩ later := by
  cases depth with
  | zero =>
      rw [makeDirectoriesTo] at hMake
      refine Or.inl ?_
      cases hStep : fs.makeDirectory ⟨path.anchor, []⟩ with
      | ok made =>
          simp only [hStep, Prod.mk.injEq, and_true] at hMake
          exact Or.inl (hMake ▸ hStep)
      | error failure =>
          simp only [hStep, Prod.mk.injEq] at hMake
          exact Or.inr ⟨failure, hStep, hMake.2, hMake.1.symm⟩
  | succ depth =>
      rw [makeDirectoriesTo] at hMake
      cases hStep : fs.makeDirectory ⟨path.anchor, path.parts.take (depth + 1)⟩ with
      | ok made =>
          simp only [hStep, Prod.mk.injEq, and_true] at hMake
          exact Or.inl (Or.inl (hMake ▸ hStep))
      | error failure =>
          simp only [hStep] at hMake
          split at hMake
          · cases hBefore : fs.makeDirectoriesTo path depth with
            | mk middle trouble =>
                cases trouble with
                | some other => simp [hBefore] at hMake
                | none =>
                    simp only [hBefore] at hMake
                    refine Or.inr ⟨depth, middle, rfl, hBefore, ?_⟩
                    cases hAgain : middle.makeDirectory
                        ⟨path.anchor, path.parts.take (depth + 1)⟩ with
                    | ok made =>
                        simp only [hAgain, Prod.mk.injEq, and_true] at hMake
                        exact Or.inl (hMake ▸ hAgain)
                    | error second =>
                        simp only [hAgain, Prod.mk.injEq] at hMake
                        obtain ⟨hLater, hNone⟩ := hMake
                        split at hNone
                        · cases hNone
                        · exact Or.inr ⟨second, hAgain, hNone, hLater.symm⟩
          · simp only [Prod.mk.injEq] at hMake
            exact Or.inl (Or.inr ⟨failure, hStep, hMake.2, hMake.1.symm⟩)

/-- When making the first directories on the way succeeds, there is a directory at the end. -/
theorem makeDirectoriesTo_ok {fs later : FileSystem} (hPlain : fs.root.Plain) {path : Path}
    (hPath : path.Normal) {depth : Nat}
    (hMake : fs.makeDirectoriesTo path depth = (later, none)) :
    Made fs path later ∧ ∃ place entries, later.find ⟨path.anchor, path.parts.take depth⟩
      = .ok (.present place (.directory entries)) := by
  induction depth generalizing later with
  | zero =>
      rcases makeDirectoriesTo_cases hMake with hStands | ⟨before, middle, hDepth, -, -⟩
      · obtain ⟨hMade, hFind⟩ := hStands.made hPlain (hPath.take 0)
        exact ⟨hMade.of_take, hFind⟩
      · cases hDepth
  | succ depth ih =>
      rcases makeDirectoriesTo_cases hMake with hStands | ⟨before, middle, hDepth, hBefore, hStands⟩
      · obtain ⟨hMade, hFind⟩ := hStands.made hPlain (hPath.take (depth + 1))
        exact ⟨hMade.of_take, hFind⟩
      · cases hDepth
        obtain ⟨hMiddle, -⟩ := ih hBefore
        obtain ⟨hMade, hFind⟩ := hStands.made hMiddle.plain (hPath.take (depth + 1))
        exact ⟨hMiddle.trans hMade.of_take, hFind⟩

/-- When making a directory and those that lead to it succeeds, it stands at the place of its
path, and no more than directories on the way were added. -/
theorem makeDirectories_ok {fs later : FileSystem} (hPlain : fs.root.Plain) {path : Path}
    (hPath : path.Normal) (hMake : fs.makeDirectories path = (later, none)) :
    Made fs path later ∧ ∃ entries, later.find path
      = .ok (.present (lexicalPlace (fs.start path) path.parts) (.directory entries)) := by
  obtain ⟨hMade, place, entries, hFind⟩ := makeDirectoriesTo_ok hPlain hPath hMake
  rw [List.take_length] at hFind
  have hLeads := ((findFor_eq_present_iff hMade.plain hPath).mp hFind).2
  rw [hMade.start_eq] at hLeads
  exact ⟨hMade, entries, hLeads.goal_eq ▸ hFind⟩

/-- A place that a path comes to by a name and not by going up. -/
def Passes (fs : FileSystem) (path : Path) (other : Location) : Prop :=
  ∃ before name, before ++ [name] <+: path.parts ∧ name ≠ ".."
    ∧ other = lexicalPlace (fs.start path) (before ++ [name])

/-- A path passes what its beginning passes. -/
theorem Passes.of_take {fs : FileSystem} {path : Path} {depth : Nat} {other : Location}
    (h : fs.Passes ⟨path.anchor, path.parts.take depth⟩ other) : fs.Passes path other := by
  obtain ⟨before, name, hWay, hName, hOther⟩ := h
  exact ⟨before, name, hWay.trans (List.take_prefix depth path.parts), hName, hOther⟩

/-- Only places that a path passes are filled when its directory is made. -/
theorem Stands.passes {fs later : FileSystem} (hPlain : fs.root.Plain) {path : Path}
    (hPath : path.Normal) (h : fs.Stands path later) {other : Location}
    (hNone : fs.root.kind? other = none) (hSome : later.root.kind? other ≠ none) :
    fs.Passes path other := by
  rcases h with hMake | ⟨failure, -, -, rfl⟩
  · obtain ⟨init, name, directory, hParts, hName, -, -, hFind, hFree, rfl⟩ :=
      makeDirectory_cases hPath hMake
    have hInit : (Path.mk path.anchor init).Normal :=
      fun part hPart => hPath part (by rw [hParts]; exact List.mem_append_left _ hPart)
    obtain ⟨-, inner, hLeads⟩ := (findDirectory_eq_ok_iff hPlain hInit).mp hFind
    have hKind : fs.root.kind? directory = some .directory :=
      Entry.kind?_eq_directory.mpr ⟨inner, hLeads.at?⟩
    have hNoDirectory : fs.root.kind? (directory ++ [name]) ≠ some .directory := by simp [hFree]
    have hPut := Entry.kind?_put Entry.isLeaf_directory hKind hNoDirectory other
    by_cases hNew : other = directory ++ [name]
    · have hGoal : directory = lexicalPlace (fs.start path) init := hLeads.goal_eq
      refine ⟨init, name, ⟨[], by rw [hParts, List.append_nil]⟩, hName.notParent, ?_⟩
      rw [lexicalPlace_concat hName.notParent, ← hGoal, hNew]
    · rw [hPut, if_neg hNew] at hSome
      exact absurd hNone hSome
  · exact absurd hNone hSome

theorem makeDirectoriesTo_passes {fs later : FileSystem} (hPlain : fs.root.Plain) {path : Path}
    (hPath : path.Normal) {depth : Nat}
    (hMake : fs.makeDirectoriesTo path depth = (later, none)) {other : Location}
    (hNone : fs.root.kind? other = none) (hSome : later.root.kind? other ≠ none) :
    fs.Passes path other := by
  induction depth generalizing later with
  | zero =>
      rcases makeDirectoriesTo_cases hMake with hStands | ⟨before, middle, hDepth, -, -⟩
      · exact (hStands.passes hPlain (hPath.take 0) hNone hSome).of_take
      · cases hDepth
  | succ depth ih =>
      rcases makeDirectoriesTo_cases hMake with hStands | ⟨before, middle, hDepth, hBefore, hStands⟩
      · exact (hStands.passes hPlain (hPath.take (depth + 1)) hNone hSome).of_take
      · cases hDepth
        obtain ⟨hMade, -⟩ := makeDirectoriesTo_ok hPlain hPath hBefore
        by_cases hMiddle : middle.root.kind? other = none
        · obtain ⟨before, name, hWay, hName, hOther⟩ :=
            (hStands.passes hMade.plain (hPath.take (depth + 1)) hMiddle hSome).of_take
          exact ⟨before, name, hWay, hName, by rw [hOther, hMade.start_eq]⟩
        · exact ih hBefore hMiddle

/-- Where there was nothing, there is a directory afterwards exactly if the path comes there by a
name. -/
theorem makeDirectories_directory_iff {fs later : FileSystem} (hPlain : fs.root.Plain)
    {path : Path} (hPath : path.Normal) (hMake : fs.makeDirectories path = (later, none))
    {other : Location} (hNone : fs.root.kind? other = none) :
    later.root.kind? other = some .directory ↔ fs.Passes path other := by
  constructor
  · intro hKind
    exact makeDirectoriesTo_passes hPlain hPath hMake hNone (by simp [hKind])
  · rintro ⟨before, name, hWay, hName, rfl⟩
    obtain ⟨hMade, entries, hFind⟩ := makeDirectories_ok hPlain hPath hMake
    have hLeads := ((findFor_eq_present_iff hMade.plain hPath).mp hFind).2
    rw [hMade.start_eq] at hLeads
    exact hLeads.passed hWay hName

end SyntaxSurvey.FileSystem
