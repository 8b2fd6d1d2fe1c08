import SyntaxSurvey.FileSystem.Lookup
import SyntaxSurvey.Proofs.FileSystem.Entry

/-! Looking up paths in a tree without links. `Leads` says which names lead from one place to
another; a look-up finds what they lead to. What is found is still found in every tree that keeps
what stands in this one. -/

open SyntaxSurvey.Path (IsPart)

namespace SyntaxSurvey.FileSystem

/-- Names that lead from a place to another. All but the last are those of directories. -/
inductive Leads (root : Entry) : Location → List String → Location → Entry → Prop
  | here {place : Location} {entry : Entry} (hAt : root.at? place = some entry) :
      Leads root place [] place entry
  | up {place goal : Location} {names : List String} {entry : Entry}
      (hRest : Leads root place.dropLast names goal entry) :
      Leads root place (".." :: names) goal entry
  | into {place goal : Location} {name : String} {names : List String} {entry : Entry}
      (hName : name ≠ "..") (hShort : name.utf8ByteSize ≤ longestName)
      (hKind : root.kind? (place ++ [name]) = some .directory)
      (hRest : Leads root (place ++ [name]) names goal entry) :
      Leads root place (name :: names) goal entry
  | file {place : Location} {name : String} {content : List UInt8}
      (hName : name ≠ "..") (hShort : name.utf8ByteSize ≤ longestName)
      (hAt : root.at? (place ++ [name]) = some (.file content)) :
      Leads root place [name] (place ++ [name]) (.file content)

namespace Leads

variable {root : Entry} {place goal : Location} {names : List String} {entry : Entry}

theorem at? (h : Leads root place names goal entry) : root.at? goal = some entry := by
  induction h with
  | here hAt => exact hAt
  | up _ ih => exact ih
  | into _ _ _ _ ih => exact ih
  | file _ _ hAt => exact hAt

/-- Names lead to the place that their wording tells. -/
theorem goal_eq (h : Leads root place names goal entry) : goal = lexicalPlace place names := by
  induction h with
  | here hAt => rfl
  | up _ ih => simpa [lexicalPlace] using ih
  | into hName _ _ _ ih => simpa [lexicalPlace, hName] using ih
  | file hName _ _ => simp [lexicalPlace, hName]

/-- Names that lead on from a directory lead on after the names that lead to it. -/
theorem append {middle : Location} {rest : List String} {entries : List (String × Entry)}
    (h : Leads root place names middle (.directory entries))
    (hRest : Leads root middle rest goal entry) : Leads root place (names ++ rest) goal entry := by
  generalize hDirectory : Entry.directory entries = directory at h
  induction h with
  | here => exact hRest
  | up _ ih => exact .up (ih hRest hDirectory)
  | into hName hShort hKind _ ih => exact .into hName hShort hKind (ih hRest hDirectory)
  | file => cases hDirectory

end Leads

namespace Entry

/-- A later tree in which each place that held something holds the same. -/
def KeptIn (root later : Entry) : Prop :=
  ∀ place kind, root.kind? place = some kind → later.kind? place = some kind

theorem KeptIn.refl (root : Entry) : root.KeptIn root :=
  fun _ _ hKind => hKind

theorem KeptIn.trans {root middle later : Entry} (h : root.KeptIn middle)
    (h' : middle.KeptIn later) : root.KeptIn later :=
  fun place kind hKind => h' place kind (h place kind hKind)

end Entry

/-- Names lead to the same place in a tree in which all directories have stayed and the same stands
at that place. -/
theorem Leads.transfer {root later entry : Entry} {place goal : Location} {names : List String}
    (h : Leads root place names goal entry)
    (hPassed : ∀ other, root.kind? other = some .directory → later.kind? other = some .directory)
    (hGoal : later.kind? goal = root.kind? goal) :
    ∃ found, Leads later place names goal found ∧ found.kind = entry.kind := by
  induction h with
  | @here place entry hAt =>
      have hKind : later.kind? place = some entry.kind := by
        rw [hGoal, Entry.kind?, hAt]
        rfl
      obtain ⟨found, hFound, hEq⟩ := Option.map_eq_some_iff.mp hKind
      exact ⟨found, .here hFound, hEq⟩
  | up _ ih =>
      obtain ⟨found, hFound, hEq⟩ := ih hGoal
      exact ⟨found, .up hFound, hEq⟩
  | into hName hShort hKind _ ih =>
      obtain ⟨found, hFound, hEq⟩ := ih hGoal
      exact ⟨found, .into hName hShort (hPassed _ hKind) hFound, hEq⟩
  | file hName hShort hAt =>
      rw [Entry.kind?_eq_file.mpr hAt] at hGoal
      exact ⟨_, .file hName hShort (Entry.kind?_eq_file.mp hGoal), rfl⟩

/-- Names lead to the same place in a tree that keeps all, and the same stands there. -/
theorem Leads.keep {root later entry : Entry} {place goal : Location} {names : List String}
    (h : Leads root place names goal entry) (hKeep : root.KeptIn later) :
    ∃ found, Leads later place names goal found ∧ found.kind = entry.kind := by
  refine h.transfer (fun other => hKeep other .directory) ?_
  have hKind : root.kind? goal = some entry.kind := by
    rw [Entry.kind?, h.at?]
    rfl
  rw [hKind, hKeep goal _ hKind]

/-- Each name on the way to a directory, but those that lead up, is that of a directory. -/
theorem Leads.passed {root : Entry} {place goal : Location} {names before : List String}
    {name : String} {entries : List (String × Entry)}
    (h : Leads root place names goal (.directory entries)) (hWay : before ++ [name] <+: names)
    (hName : name ≠ "..") :
    root.kind? (lexicalPlace place (before ++ [name])) = some .directory := by
  generalize hDirectory : Entry.directory entries = entry at h
  induction h generalizing before with
  | here => simp at hWay
  | up _ ih =>
      cases before with
      | nil => exact absurd (List.prefix_cons_iff.mp hWay) (by simp [hName])
      | cons first others =>
          obtain ⟨rfl, hRest⟩ := List.cons_prefix_cons.mp hWay
          exact ih hRest hDirectory
  | into hInto _ hKind _ ih =>
      cases before with
      | nil =>
          obtain ⟨rfl, -⟩ := List.cons_prefix_cons.mp hWay
          simpa [lexicalPlace, hName] using hKind
      | cons first others =>
          obtain ⟨rfl, hRest⟩ := List.cons_prefix_cons.mp hWay
          simpa [lexicalPlace, hInto] using ih hRest hDirectory
  | file => cases hDirectory

section Walk

variable (root : Entry) (aim : Aim)
  (onLink : Location → String → List String → Except Cause Found)

/-- The component for the parent takes the last name away. -/
theorem walkWith_parent (place : Location) (rest : List String) :
    walkWith root aim onLink place (".." :: rest)
      = walkWith root aim onLink place.dropLast rest := by
  rw [walkWith, if_neg (by decide), if_pos rfl]

/-- A name is followed when it is short enough and that of a directory, or the last one. -/
theorem walkWith_name {place : Location} {name : String} {rest : List String}
    (hName : IsName name) (hRest : ∀ part ∈ rest, IsPart part) :
    walkWith root aim onLink place (name :: rest)
      = if longestName < name.utf8ByteSize then .error .nameTooLong
        else match root.at? (place ++ [name]) with
          | none => if rest.isEmpty then .ok (.absent place name) else .error .notFound
          | some (.directory _) => walkWith root aim onLink (place ++ [name]) rest
          | some (.file content) =>
            if rest.isEmpty then .ok (.present (place ++ [name]) (.file content))
            else .error .notDirectory
          | some (.link target) => onLink place target rest := by
  have hNoMark : ¬(name = "." ∨ name = directoryMark) := by
    rintro (hSelf | hMark)
    · exact hName.notSelf hSelf
    · exact hName.nonempty hMark
  have hNoEnd : ¬(aim = .making ∧ rest = [directoryMark]) := by
    rintro ⟨-, rfl⟩
    exact (hRest directoryMark (by simp)).nonempty rfl
  have hChild : (root.at? place).bind (·.child? name) = root.at? (place ++ [name]) :=
    (Entry.at?_concat root place name).symm
  rw [walkWith, if_neg hNoMark, if_neg hName.notParent, if_neg hNoEnd]
  cases hAt : root.at? (place ++ [name]) with
  | none => simp only [hChild, hAt]
  | some entry => cases entry <;> simp only [hChild, hAt]

/-- A part is the name of the parent directory, or a name that a directory can list. -/
theorem parent_or_isName {part : String} (hPart : IsPart part) : part = ".." ∨ IsName part := by
  by_cases hParent : part = ".."
  · exact Or.inl hParent
  · exact Or.inr ⟨hPart, hParent⟩

/-- What names lead to is found. -/
theorem Leads.walkWith_eq {place goal : Location} {names : List String} {entry : Entry}
    (h : Leads root place names goal entry) (hNames : ∀ part ∈ names, IsPart part) :
    walkWith root aim onLink place names = .ok (.present goal entry) := by
  induction h with
  | here hAt => rw [walkWith, hAt]
  | up _ ih =>
      rw [walkWith_parent]
      exact ih fun part hPart => hNames part (List.mem_cons_of_mem _ hPart)
  | @into place goal name rest entry hName hShort hKind _ ih =>
      have hRest : ∀ part ∈ rest, IsPart part :=
        fun part hPart => hNames part (List.mem_cons_of_mem name hPart)
      obtain ⟨entries, hAt⟩ := Entry.kind?_eq_directory.mp hKind
      rw [walkWith_name root aim onLink ⟨hNames name (by simp), hName⟩ hRest,
        if_neg (Nat.not_lt.mpr hShort), hAt]
      exact ih hRest
  | @file place name content hName hShort hAt =>
      rw [walkWith_name root aim onLink ⟨hNames name (by simp), hName⟩ (by simp),
        if_neg (Nat.not_lt.mpr hShort), hAt]
      rfl

/-- Without links, names lead to what is found. -/
theorem leads_of_walkWith (hPlain : root.Plain) {place goal : Location} {names : List String}
    {entry : Entry} (hNames : ∀ part ∈ names, IsPart part)
    (hWalk : walkWith root aim onLink place names = .ok (.present goal entry)) :
    Leads root place names goal entry := by
  induction names generalizing place with
  | nil =>
      rw [walkWith] at hWalk
      cases hAt : root.at? place with
      | none => simp [hAt] at hWalk
      | some found =>
          simp only [hAt, Except.ok.injEq, Found.present.injEq] at hWalk
          obtain ⟨rfl, rfl⟩ := hWalk
          exact .here hAt
  | cons name rest ih =>
      have hRest : ∀ part ∈ rest, IsPart part :=
        fun part hPart => hNames part (List.mem_cons_of_mem name hPart)
      rcases parent_or_isName (hNames name (by simp)) with rfl | hName
      · rw [walkWith_parent] at hWalk
        exact .up (ih hRest hWalk)
      · rw [walkWith_name root aim onLink hName hRest] at hWalk
        split at hWalk
        · cases hWalk
        · rename_i hLong
          have hShort : name.utf8ByteSize ≤ longestName := Nat.le_of_not_lt hLong
          cases hAt : root.at? (place ++ [name]) with
          | none =>
              simp only [hAt] at hWalk
              split at hWalk <;> cases hWalk
          | some found =>
              simp only [hAt] at hWalk
              cases found with
              | directory entries =>
                  exact .into hName.notParent hShort (Entry.kind?_eq_directory.mpr ⟨_, hAt⟩)
                    (ih hRest hWalk)
              | file content =>
                  dsimp only at hWalk
                  split at hWalk
                  · rename_i hLast
                    obtain rfl : rest = [] := List.isEmpty_iff.mp hLast
                    cases hWalk
                    exact .file hName.notParent hShort hAt
                  · cases hWalk
              | link target =>
                  have hLink := hPlain.linkless (place ++ [name]) target
                  exact absurd (by simp [Entry.kind?, hAt, Entry.kind]) hLink

/-- Without links, what is found is what the names lead to. -/
theorem walkWith_eq_present_iff (hPlain : root.Plain) {place goal : Location} {names : List String}
    {entry : Entry} (hNames : ∀ part ∈ names, IsPart part) :
    walkWith root aim onLink place names = .ok (.present goal entry)
      ↔ Leads root place names goal entry :=
  ⟨leads_of_walkWith root aim onLink hPlain hNames, fun h => h.walkWith_eq root aim onLink hNames⟩

/-- Names that follow those of a directory are looked up from there. -/
theorem walkWith_append {place goal : Location} {names rest : List String}
    {entries : List (String × Entry)} (hNames : ∀ part ∈ names, IsPart part)
    (hRest : ∀ part ∈ rest, IsPart part)
    (hLeads : Leads root place names goal (.directory entries)) :
    walkWith root aim onLink place (names ++ rest) = walkWith root aim onLink goal rest := by
  generalize hEntry : Entry.directory entries = entry at hLeads
  induction hLeads with
  | here hAt => rfl
  | up _ ih =>
      rw [List.cons_append, walkWith_parent]
      exact ih (fun part hPart => hNames part (List.mem_cons_of_mem _ hPart)) hEntry
  | @into place goal name names entry hName hShort hKind _ ih =>
      have hInner : ∀ part ∈ names, IsPart part :=
        fun part hPart => hNames part (List.mem_cons_of_mem name hPart)
      have hAfter : ∀ part ∈ names ++ rest, IsPart part := by
        intro part hPart
        rcases List.mem_append.mp hPart with hLeft | hRight
        · exact hInner part hLeft
        · exact hRest part hRight
      obtain ⟨inner, hAt⟩ := Entry.kind?_eq_directory.mp hKind
      rw [List.cons_append,
        walkWith_name root aim onLink ⟨hNames name (by simp), hName⟩ hAfter,
        if_neg (Nat.not_lt.mpr hShort), hAt]
      exact ih hInner hEntry
  | file => cases hEntry

end Walk

theorem exists_walk_eq (root : Entry) (aim : Aim) :
    ∃ onLink, walk root aim mostLinks = walkWith root aim onLink :=
  ⟨_, rfl⟩

/-- A look-up finds what the names of a path lead to. -/
theorem findFor_eq_present_iff {fs : FileSystem} (hPlain : fs.root.Plain) {path : Path}
    (hPath : path.Normal) {aim : Aim} {place : Location} {entry : Entry} :
    fs.findFor aim path = .ok (.present place entry)
      ↔ refuse? path = none ∧ Leads fs.root (fs.start path) path.parts place entry := by
  obtain ⟨onLink, hWalk⟩ := exists_walk_eq fs.root aim
  rw [findFor, hWalk]
  cases hRefuse : refuse? path with
  | some cause => simp
  | none => simp [walkWith_eq_present_iff fs.root aim onLink hPlain hPath]

/-- In a plain tree a directory is found if its path is not refused and its names lead there. -/
theorem findDirectory_eq_ok_iff {fs : FileSystem} (hPlain : fs.root.Plain) {path : Path}
    (hPath : path.Normal) {place : Location} :
    fs.findDirectory path = .ok place
      ↔ refuse? path = none
        ∧ ∃ entries, Leads fs.root (fs.start path) path.parts place (.directory entries) := by
  rw [findDirectory]
  constructor
  · intro hFind
    split at hFind
    · rename_i found entries hPresent
      cases hFind
      obtain ⟨hRefuse, hLeads⟩ := (findFor_eq_present_iff hPlain hPath).mp hPresent
      exact ⟨hRefuse, entries, hLeads⟩
    all_goals cases hFind
  · rintro ⟨hRefuse, entries, hLeads⟩
    have hPresent : fs.find path = .ok (.present place (.directory entries)) :=
      (findFor_eq_present_iff hPlain hPath).mpr ⟨hRefuse, hLeads⟩
    rw [hPresent]

/-- What is found is found at the same place in a tree in which all directories have stayed and the
same stands at that place. -/
theorem find_transfer {fs later : FileSystem} (hPlain : fs.root.Plain)
    (hLater : later.root.Plain) (hHere : later.here = fs.here)
    (hPassed : ∀ other, fs.root.kind? other = some .directory →
      later.root.kind? other = some .directory)
    {path : Path} (hPath : path.Normal) {place : Location} {entry : Entry}
    (hFind : fs.find path = .ok (.present place entry))
    (hGoal : later.root.kind? place = fs.root.kind? place) :
    ∃ found, later.find path = .ok (.present place found) ∧ found.kind = entry.kind := by
  obtain ⟨hRefuse, hLeads⟩ := (findFor_eq_present_iff hPlain hPath).mp hFind
  obtain ⟨found, hFound, hKind⟩ := hLeads.transfer hPassed hGoal
  have hStart : later.start path = fs.start path := by
    rw [start, start, hHere]
  refine ⟨found, (findFor_eq_present_iff hLater hPath).mpr ⟨hRefuse, ?_⟩, hKind⟩
  rwa [hStart]

/-- What is found is found at the same place in a tree that keeps all. -/
theorem find_keep {fs later : FileSystem} (hPlain : fs.root.Plain) (hLater : later.root.Plain)
    (hHere : later.here = fs.here) (hKeep : fs.root.KeptIn later.root) {path : Path}
    (hPath : path.Normal) {place : Location} {entry : Entry}
    (hFind : fs.find path = .ok (.present place entry)) :
    ∃ found, later.find path = .ok (.present place found) ∧ found.kind = entry.kind := by
  have hLeads := ((findFor_eq_present_iff hPlain hPath).mp hFind).2
  have hKind : fs.root.kind? place = some entry.kind := by
    rw [Entry.kind?, hLeads.at?]
    rfl
  refine find_transfer hPlain hLater hHere (fun other => hKeep other .directory) hPath hFind ?_
  rw [hKind, hKeep place _ hKind]

end SyntaxSurvey.FileSystem
