import SyntaxSurvey.FileSystem.Operations
import SyntaxSurvey.Proofs.FileSystem.Lookup

/-! Looking up paths in any tree, links followed. `Follows` tells what components lead to, one
component after another; a look-up finds that. What is found is still found in a tree that retains
the directories, the links and the files of this one, whatever the files hold by then. -/

namespace SyntaxSurvey.FileSystem

/-- A component that is looked up in the directory where it stands. -/
structure IsEntered (part : String) : Prop where
  notSelf : part ≠ "."
  notMark : part ≠ directoryMark
  notParent : part ≠ ".."
  short : part.utf8ByteSize ≤ longestName

/-- What components lead to from a place, by way of at most so many links. -/
inductive Follows (root : Entry) : Nat → Location → List String → Found → Prop
  | here {links : Nat} {place : Location} {entry : Entry} (hAt : root.at? place = some entry) :
      Follows root links place [] (.present place entry)
  | stay {links : Nat} {place : Location} {part : String} {rest : List String} {found : Found}
      (hStay : part = "." ∨ part = directoryMark) (hRest : Follows root links place rest found) :
      Follows root links place (part :: rest) found
  | up {links : Nat} {place : Location} {rest : List String} {found : Found}
      (hRest : Follows root links place.dropLast rest found) :
      Follows root links place (".." :: rest) found
  | absent {links : Nat} {place : Location} {part : String} (hPart : IsEntered part)
      (hNone : root.at? (place ++ [part]) = none) :
      Follows root links place [part] (.absent place part)
  | into {links : Nat} {place : Location} {part : String} {rest : List String} {found : Found}
      (hPart : IsEntered part) (hKind : root.kind? (place ++ [part]) = some .directory)
      (hRest : Follows root links (place ++ [part]) rest found) :
      Follows root links place (part :: rest) found
  | file {links : Nat} {place : Location} {part : String} {content : List UInt8}
      (hPart : IsEntered part) (hAt : root.at? (place ++ [part]) = some (.file content)) :
      Follows root links place [part] (.present (place ++ [part]) (.file content))
  | link {links : Nat} {place : Location} {part target : String} {rest : List String}
      {found : Found} (hPart : IsEntered part)
      (hAt : root.at? (place ++ [part]) = some (.link target)) (hTarget : target ≠ "")
      (hRest : Follows root links (if target.startsWith "/" then [] else place)
        (targetParts target ++ rest) found) :
      Follows root (links + 1) place (part :: rest) found

section Walk

variable {root : Entry} {aim : Aim} {links : Nat} {place : Location} {parts : List String}
  {found : Found} {onLink : Location → String → List String → Except Cause Found}

/-- A name as the target of a link is followed as it is. -/
theorem targetParts_of_isName {name : String} (hName : IsName name) :
    targetParts name = [name] := by
  have hPieces : (Path.splitSlash name.toList).map String.ofList = [name] := by
    rw [Path.splitSlash_eq_splitOn, List.splitOn_eq_singleton hName.unsplit]
    simp
  simp [targetParts, hPieces, hName.nonempty]

theorem exists_walkWith (root : Entry) (aim : Aim) (links : Nat) :
    ∃ onLink, walk root aim links = walkWith root aim onLink := by
  cases links with
  | zero => exact ⟨_, rfl⟩
  | succ links => exact ⟨_, rfl⟩

/-- A component that is looked up, unless it has to be a directory and a file is to be written. -/
theorem walkWith_entered {part : String} {rest : List String} (hPart : IsEntered part)
    (hNoEnd : ¬(aim = .making ∧ rest = [directoryMark])) :
    walkWith root aim onLink place (part :: rest)
      = match root.at? (place ++ [part]) with
        | none => if rest.isEmpty then .ok (.absent place part) else .error .notFound
        | some (.directory _) => walkWith root aim onLink (place ++ [part]) rest
        | some (.file content) =>
          if rest.isEmpty then .ok (.present (place ++ [part]) (.file content))
          else .error .notDirectory
        | some (.link target) => onLink place target rest := by
  have hNoMark : ¬(part = "." ∨ part = directoryMark) := not_or.mpr ⟨hPart.notSelf, hPart.notMark⟩
  rewrite [walkWith, if_neg hNoMark, if_neg hPart.notParent, if_neg hNoEnd,
    if_neg (Nat.not_lt.mpr hPart.short), Entry.at?_concat]
  cases (root.at? place).bind (·.child? part) with
  | none => rfl
  | some entry => cases entry <;> rfl

/-- Whatever is done at links, a walk follows components if what is done there does. -/
theorem follows_of_walkWith
    (hLink : ∀ place target rest found, onLink place target rest = .ok found →
      ∃ fewer, links = fewer + 1 ∧ target ≠ ""
        ∧ Follows root fewer (if target.startsWith "/" then [] else place)
            (targetParts target ++ rest) found)
    (hWalk : walkWith root aim onLink place parts = .ok found) :
    Follows root links place parts found := by
  induction parts generalizing place with
  | nil =>
      rw [walkWith] at hWalk
      cases hAt : root.at? place with
      | none => simp [hAt] at hWalk
      | some entry =>
          simp only [hAt, Except.ok.injEq] at hWalk
          exact hWalk ▸ .here hAt
  | cons part rest ih =>
      rw [walkWith] at hWalk
      split at hWalk
      · exact .stay ‹_› (ih hWalk)
      rename_i hNoMark
      split at hWalk
      · rename_i hParent
        exact hParent ▸ .up (ih hWalk)
      rename_i hNotParent
      split at hWalk
      · cases hWalk
      split at hWalk
      · cases hWalk
      rename_i hShort
      have hPart : IsEntered part := ⟨fun hSelf => hNoMark (Or.inl hSelf),
        fun hMark => hNoMark (Or.inr hMark), hNotParent, Nat.le_of_not_lt hShort⟩
      rw [← Entry.at?_concat] at hWalk
      cases hAt : root.at? (place ++ [part]) with
      | none =>
          simp only [hAt] at hWalk
          split at hWalk
          · obtain rfl : rest = [] := List.isEmpty_iff.mp ‹_›
            cases hWalk
            exact .absent hPart hAt
          · cases hWalk
      | some entry =>
          simp only [hAt] at hWalk
          cases entry with
          | directory entries =>
              exact .into hPart (Entry.kind?_eq_directory.mpr ⟨entries, hAt⟩) (ih hWalk)
          | file content =>
              dsimp only at hWalk
              split at hWalk
              · obtain rfl : rest = [] := List.isEmpty_iff.mp ‹_›
                cases hWalk
                exact .file hPart hAt
              · cases hWalk
          | link target =>
              obtain ⟨fewer, rfl, hTarget, hRest⟩ := hLink place target rest found hWalk
              exact .link hPart hAt hTarget hRest

/-- What is found, for whatever aim, is what the components lead to. -/
theorem follows_of_walk (hWalk : walk root aim links place parts = .ok found) :
    Follows root links place parts found := by
  induction links generalizing place parts found with
  | zero => exact follows_of_walkWith (fun _ _ _ _ hLink => by cases hLink) hWalk
  | succ links ih =>
      refine follows_of_walkWith (fun place target rest found hLink => ?_) hWalk
      split at hLink
      · cases hLink
      · exact ⟨links, rfl, ‹_›, ih hLink⟩

namespace Follows

/-- What components lead to is found. -/
theorem walk_eq (h : Follows root links place parts found) :
    walk root .seeing links place parts = .ok found := by
  induction h with
  | @here links place entry hAt =>
      obtain ⟨onLink, hWalk⟩ := exists_walkWith root .seeing links
      rw [hWalk, walkWith, hAt]
  | @stay links place part rest found hStay hRest ih =>
      obtain ⟨onLink, hWalk⟩ := exists_walkWith root .seeing links
      rw [hWalk] at ih ⊢
      rw [walkWith, if_pos hStay, ih]
  | @up links place rest found hRest ih =>
      obtain ⟨onLink, hWalk⟩ := exists_walkWith root .seeing links
      rw [hWalk] at ih ⊢
      rw [walkWith_parent, ih]
  | @absent links place part hPart hNone =>
      obtain ⟨onLink, hWalk⟩ := exists_walkWith root .seeing links
      rw [hWalk, walkWith_entered hPart (by simp), hNone]
      rfl
  | @into links place part rest found hPart hKind hRest ih =>
      obtain ⟨onLink, hWalk⟩ := exists_walkWith root .seeing links
      obtain ⟨entries, hAt⟩ := Entry.kind?_eq_directory.mp hKind
      rw [hWalk] at ih ⊢
      rw [walkWith_entered hPart (by simp), hAt]
      exact ih
  | @file links place part content hPart hAt =>
      obtain ⟨onLink, hWalk⟩ := exists_walkWith root .seeing links
      rw [hWalk, walkWith_entered hPart (by simp), hAt]
      rfl
  | link hPart hAt hTarget hRest ih =>
      rw [walk, walkWith_entered hPart (by simp), hAt]
      dsimp only
      rw [if_neg hTarget, ih]

/-- More links may be followed than are. -/
theorem mono (h : Follows root links place parts found) {more : Nat} (hMore : links ≤ more) :
    Follows root more place parts found := by
  induction h generalizing more with
  | here hAt => exact .here hAt
  | stay hStay _ ih => exact .stay hStay (ih hMore)
  | up _ ih => exact .up (ih hMore)
  | absent hPart hNone => exact .absent hPart hNone
  | into hPart hKind _ ih => exact .into hPart hKind (ih hMore)
  | file hPart hAt => exact .file hPart hAt
  | link hPart hAt hTarget _ ih =>
      obtain ⟨others, rfl⟩ : ∃ others, more = others + 1 := ⟨more - 1, by omega⟩
      exact .link hPart hAt hTarget (ih (by omega))

/-- Components that lead on from a directory lead on after those that lead to it. -/
theorem append {goal : Location} {rest : List String} {entries : List (String × Entry)}
    (h : Follows root links place parts (.present goal (.directory entries)))
    (hRest : Follows root 0 goal rest found) : Follows root links place (parts ++ rest) found := by
  generalize hGoal : Found.present goal (.directory entries) = middle at h
  induction h with
  | here hAt =>
      cases hGoal
      exact hRest.mono (Nat.zero_le _)
  | stay hStay _ ih => exact .stay hStay (ih hGoal)
  | up _ ih => exact .up (ih hGoal)
  | absent => cases hGoal
  | into hPart hKind _ ih => exact .into hPart hKind (ih hGoal)
  | file => cases hGoal
  | link hPart hAt hTarget _ ih =>
      rw [List.append_assoc] at ih
      exact .link hPart hAt hTarget (ih hGoal)

/-- From a directory on, components are looked up as they are after those that lead to it. -/
theorem walk_append {goal : Location} {entries : List (String × Entry)}
    (h : Follows root links place parts (.present goal (.directory entries)))
    (rest : List String) :
    ∃ fewer, walk root .seeing links place (parts ++ rest) = walk root .seeing fewer goal rest := by
  generalize hGoal : Found.present goal (.directory entries) = middle at h
  induction h with
  | @here links place entry hAt =>
      cases hGoal
      exact ⟨links, rfl⟩
  | @stay links place part others found hStay hOthers ih =>
      obtain ⟨fewer, hFewer⟩ := ih hGoal
      obtain ⟨onLink, hWalk⟩ := exists_walkWith root .seeing links
      rw [hWalk] at hFewer ⊢
      exact ⟨fewer, by rw [List.cons_append, walkWith, if_pos hStay, hFewer]⟩
  | @up links place others found hOthers ih =>
      obtain ⟨fewer, hFewer⟩ := ih hGoal
      obtain ⟨onLink, hWalk⟩ := exists_walkWith root .seeing links
      rw [hWalk] at hFewer ⊢
      exact ⟨fewer, by rw [List.cons_append, walkWith_parent, hFewer]⟩
  | absent => cases hGoal
  | @into links place part others found hPart hKind hOthers ih =>
      obtain ⟨fewer, hFewer⟩ := ih hGoal
      obtain ⟨onLink, hWalk⟩ := exists_walkWith root .seeing links
      obtain ⟨inner, hAt⟩ := Entry.kind?_eq_directory.mp hKind
      rw [hWalk] at hFewer ⊢
      refine ⟨fewer, ?_⟩
      rw [List.cons_append, walkWith_entered hPart (by simp), hAt]
      exact hFewer
  | file => cases hGoal
  | link hPart hAt hTarget hOthers ih =>
      obtain ⟨fewer, hFewer⟩ := ih hGoal
      refine ⟨fewer, ?_⟩
      rw [List.cons_append, walk, walkWith_entered hPart (by simp), hAt]
      dsimp only
      rw [if_neg hTarget, ← List.append_assoc, hFewer]

/-- What components lead to is in the tree. -/
theorem at? {goal : Location} {entry : Entry}
    (h : Follows root links place parts (.present goal entry)) : root.at? goal = some entry := by
  generalize hFound : Found.present goal entry = found at h
  induction h with
  | here hAt =>
      cases hFound
      exact hAt
  | stay _ _ ih => exact ih hFound
  | up _ ih => exact ih hFound
  | absent => cases hFound
  | into _ _ _ ih => exact ih hFound
  | file _ hAt =>
      cases hFound
      exact hAt
  | link _ _ _ _ ih => exact ih hFound

end Follows

end Walk

namespace Entry

/-- What lies below something lies below a directory. -/
theorem directory_of_append {root : Entry} {place rest : Location}
    (hKind : root.kind? (place ++ rest) = some .directory) :
    root.kind? place = some .directory := by
  cases rest with
  | nil => simpa using hKind
  | cons name rest =>
      obtain ⟨entries, hAt⟩ := kind?_eq_directory.mp hKind
      rw [show place ++ name :: rest = (place ++ [name]) ++ rest by simp, at?_append] at hAt
      obtain ⟨child, hChild, -⟩ := Option.bind_eq_some_iff.mp hAt
      obtain ⟨inner, hInner, -⟩ := directory_of_at?_concat hChild
      exact kind?_eq_directory.mpr ⟨inner, hInner⟩

/-- A link leads on from the root or from the directory that lists it. -/
theorem directory_target {root : Entry} {place : Location} (absolute : Bool)
    (hKind : root.kind? place = some .directory) :
    root.kind? (if absolute then [] else place) = some .directory := by
  split
  · have hWhole : root.kind? ([] ++ place) = some .directory := hKind
    exact directory_of_append hWhole
  · exact hKind

/-- What stands above a directory is a directory. -/
theorem directory_dropLast {root : Entry} {place : Location}
    (hKind : root.kind? place = some .directory) :
    root.kind? place.dropLast = some .directory := by
  obtain ⟨rest, hRest⟩ := List.dropLast_prefix place
  rw [← hRest] at hKind
  exact directory_of_append hKind

/-- A tree in which every directory and every link of another one has stayed, and every file is
still a file. -/
structure Retains (root later : Entry) : Prop where
  directory : ∀ place, root.kind? place = some .directory → later.kind? place = some .directory
  link : ∀ place target, root.kind? place = some (.link target) →
    later.kind? place = some (.link target)
  file : ∀ place content, root.kind? place = some (.file content) →
    ∃ other, later.kind? place = some (.file other)

theorem KeptIn.retains {root later : Entry} (h : root.KeptIn later) : root.Retains later where
  directory place := h place _
  link place _ := h place _
  file place content hKind := ⟨content, h place _ hKind⟩

theorem kind?_eq_link {root : Entry} {place : Location} {target : String} :
    root.kind? place = some (.link target) ↔ root.at? place = some (.link target) := by
  constructor
  · intro hKind
    obtain ⟨entry, hAt, hEntry⟩ := Option.map_eq_some_iff.mp hKind
    cases entry with
    | file content => cases hEntry
    | link found =>
        cases hEntry
        exact hAt
    | directory entries => cases hEntry
  · intro hAt
    simp [kind?, hAt, kind]

/-- Where things are retained, there is still something at every place. -/
theorem Retains.at? {root later entry : Entry} (h : root.Retains later) {place : Location}
    (hAt : root.at? place = some entry) : ∃ other, later.at? place = some other := by
  cases entry with
  | file content =>
      obtain ⟨other, hOther⟩ := h.file place content (kind?_eq_file.mpr hAt)
      exact ⟨_, kind?_eq_file.mp hOther⟩
  | link target => exact ⟨_, kind?_eq_link.mp (h.link place target (kind?_eq_link.mpr hAt))⟩
  | directory entries =>
      obtain ⟨other, hOther⟩ :=
        kind?_eq_directory.mp (h.directory place (kind?_eq_directory.mpr ⟨entries, hAt⟩))
      exact ⟨_, hOther⟩

end Entry

namespace Follows

variable {root later : Entry} {links : Nat} {place goal : Location} {parts : List String}

/-- From a directory, components lead to something that is listed in a directory, or to a name
that a directory does not list. -/
theorem absent_cases {directory : Location} {name : String}
    (h : Follows root links place parts (.absent directory name))
    (hPlace : root.kind? place = some .directory) :
    root.kind? directory = some .directory ∧ root.at? (directory ++ [name]) = none := by
  generalize hFound : Found.absent directory name = found at h
  induction h with
  | here => cases hFound
  | stay _ _ ih => exact ih hPlace hFound
  | up _ ih => exact ih (Entry.directory_dropLast hPlace) hFound
  | absent _ hNone =>
      cases hFound
      exact ⟨hPlace, hNone⟩
  | into _ hKind _ ih => exact ih hKind hFound
  | file => cases hFound
  | link _ _ _ _ ih => exact ih (Entry.directory_target _ hPlace) hFound

/-- Components lead to the same place in a tree that retains this one. -/
theorem retained {entry : Entry} (h : Follows root links place parts (.present goal entry))
    (hRetains : root.Retains later) :
    ∃ other, Follows later links place parts (.present goal other) := by
  generalize hFound : Found.present goal entry = found at h
  induction h with
  | here hAt =>
      cases hFound
      obtain ⟨other, hOther⟩ := hRetains.at? hAt
      exact ⟨other, .here hOther⟩
  | stay hStay _ ih =>
      obtain ⟨other, hOther⟩ := ih hFound
      exact ⟨other, .stay hStay hOther⟩
  | up _ ih =>
      obtain ⟨other, hOther⟩ := ih hFound
      exact ⟨other, .up hOther⟩
  | absent => cases hFound
  | into hPart hKind _ ih =>
      obtain ⟨other, hOther⟩ := ih hFound
      exact ⟨other, .into hPart (hRetains.directory _ hKind) hOther⟩
  | file hPart hAt =>
      cases hFound
      obtain ⟨content, hContent⟩ := hRetains.file _ _ (Entry.kind?_eq_file.mpr hAt)
      exact ⟨_, .file hPart (Entry.kind?_eq_file.mp hContent)⟩
  | link hPart hAt hTarget _ ih =>
      obtain ⟨other, hOther⟩ := ih hFound
      have hLink := hRetains.link _ _ (Entry.kind?_eq_link.mpr hAt)
      exact ⟨other, .link hPart (Entry.kind?_eq_link.mp hLink) hTarget hOther⟩

/-- Components that lead to a name that was missing lead to a file that stands there by now. -/
theorem filled {directory : Location} {name : String} {content : List UInt8}
    (h : Follows root links place parts (.absent directory name)) (hRetains : root.Retains later)
    (hFile : later.at? (directory ++ [name]) = some (.file content)) :
    Follows later links place parts (.present (directory ++ [name]) (.file content)) := by
  generalize hFound : Found.absent directory name = found at h
  induction h with
  | here => cases hFound
  | stay hStay _ ih => exact .stay hStay (ih hFound)
  | up _ ih => exact .up (ih hFound)
  | absent hPart _ =>
      cases hFound
      exact .file hPart hFile
  | into hPart hKind _ ih => exact .into hPart (hRetains.directory _ hKind) (ih hFound)
  | file => cases hFound
  | link hPart hAt hTarget _ ih =>
      have hLink := hRetains.link _ _ (Entry.kind?_eq_link.mpr hAt)
      exact .link hPart (Entry.kind?_eq_link.mp hLink) hTarget (ih hFound)

variable {names rest : List String} {found : Found}

/-- The first components lead to a directory, and the others from there to what is found. -/
def Parted (root : Entry) (links : Nat) (place : Location) (names rest : List String)
    (found : Found) : Prop :=
  ∃ goal entries fewer, Follows root links place names (.present goal (.directory entries))
    ∧ Follows root fewer goal rest found

theorem parted_nil (hPlace : root.kind? place = some .directory)
    (h : Follows root links place rest found) : Parted root links place [] rest found := by
  obtain ⟨entries, hAt⟩ := Entry.kind?_eq_directory.mp hPlace
  exact ⟨place, entries, links, .here hAt, h⟩

/-- Components before others lead to a directory. -/
theorem parted (h : Follows root links place (names ++ rest) found) (hRest : rest ≠ [])
    (hPlace : root.kind? place = some .directory) : Parted root links place names rest found := by
  generalize hParts : names ++ rest = parts at h
  induction h generalizing names with
  | here => simp [hRest] at hParts
  | stay hStay hOthers ih =>
      cases names with
      | nil =>
          obtain rfl := hParts
          exact parted_nil hPlace (.stay hStay hOthers)
      | cons name names =>
          cases hParts
          obtain ⟨goal, entries, fewer, hNames, hOn⟩ := ih hPlace rfl
          exact ⟨goal, entries, fewer, .stay hStay hNames, hOn⟩
  | up hOthers ih =>
      cases names with
      | nil =>
          obtain rfl := hParts
          exact parted_nil hPlace (.up hOthers)
      | cons name names =>
          cases hParts
          obtain ⟨goal, entries, fewer, hNames, hOn⟩ := ih (Entry.directory_dropLast hPlace) rfl
          exact ⟨goal, entries, fewer, .up hNames, hOn⟩
  | absent hPart hNone =>
      cases names with
      | nil =>
          obtain rfl := hParts
          exact parted_nil hPlace (.absent hPart hNone)
      | cons name names => simp [hRest] at hParts
  | into hPart hKind hOthers ih =>
      cases names with
      | nil =>
          obtain rfl := hParts
          exact parted_nil hPlace (.into hPart hKind hOthers)
      | cons name names =>
          cases hParts
          obtain ⟨goal, entries, fewer, hNames, hOn⟩ := ih hKind rfl
          exact ⟨goal, entries, fewer, .into hPart hKind hNames, hOn⟩
  | file hPart hAt =>
      cases names with
      | nil =>
          obtain rfl := hParts
          exact parted_nil hPlace (.file hPart hAt)
      | cons name names => simp [hRest] at hParts
  | link hPart hAt hTarget hOthers ih =>
      cases names with
      | nil =>
          obtain rfl := hParts
          exact parted_nil hPlace (.link hPart hAt hTarget hOthers)
      | cons name names =>
          cases hParts
          obtain ⟨goal, entries, fewer, hNames, hOn⟩ :=
            ih (Entry.directory_target _ hPlace) (List.append_assoc ..)
          exact ⟨goal, entries, fewer, .link hPart hAt hTarget hNames, hOn⟩

/-- Components that end in the mark of a directory lead to no file. -/
theorem no_file_of_mark {content : List UInt8}
    (hPlace : root.kind? place = some .directory) :
    ¬Follows root links place (parts ++ [directoryMark]) (.present goal (.file content)) := by
  intro h
  obtain ⟨middle, entries, fewer, hInit, hMark⟩ := h.parted (by simp) hPlace
  generalize hLast : [directoryMark] = last at hMark
  cases hMark with
  | here => cases hLast
  | stay _ hRest =>
      obtain ⟨-, rfl⟩ := List.cons.inj hLast
      cases hRest with
      | here hAt => simp [hInit.at?] at hAt
  | up => exact absurd (List.cons.inj hLast).1 (by decide)
  | into hPart => exact hPart.notMark (List.cons.inj hLast).1.symm
  | file hPart => exact hPart.notMark (List.cons.inj hLast).1.symm
  | link hPart => exact hPart.notMark (List.cons.inj hLast).1.symm

/-- A file that is there is found as well when the aim is to write it. -/
theorem walk_making {content : List UInt8}
    (h : Follows root links place parts (.present goal (.file content)))
    (hPlace : root.kind? place = some .directory) :
    walk root .making links place parts = .ok (.present goal (.file content)) := by
  generalize hFound : Found.present goal (.file content) = found at h
  induction h with
  | @here links place entry hAt =>
      obtain ⟨onLink, hWalk⟩ := exists_walkWith root .making links
      rw [hWalk, walkWith, hAt]
  | @stay links place part rest found hStay hRest ih =>
      obtain ⟨onLink, hWalk⟩ := exists_walkWith root .making links
      rw [hWalk] at ih ⊢
      rw [walkWith, if_pos hStay]
      exact ih hPlace hFound
  | @up links place rest found hRest ih =>
      obtain ⟨onLink, hWalk⟩ := exists_walkWith root .making links
      rw [hWalk] at ih ⊢
      rw [walkWith_parent]
      exact ih (Entry.directory_dropLast hPlace) hFound
  | absent => cases hFound
  | @into links place part rest found hPart hKind hRest ih =>
      have hNoEnd : ¬(Aim.making = .making ∧ rest = [directoryMark]) := by
        rintro ⟨-, rfl⟩
        subst hFound
        have hMark : Follows root links (place ++ [part]) ([] ++ [directoryMark])
            (.present goal (.file content)) := hRest
        exact no_file_of_mark hKind hMark
      obtain ⟨onLink, hWalk⟩ := exists_walkWith root .making links
      obtain ⟨entries, hAt⟩ := Entry.kind?_eq_directory.mp hKind
      rw [hWalk] at ih ⊢
      rw [walkWith_entered hPart hNoEnd, hAt]
      exact ih hKind hFound
  | @file links place part old hPart hAt =>
      obtain ⟨onLink, hWalk⟩ := exists_walkWith root .making links
      rw [hWalk, walkWith_entered hPart (by simp), hAt]
      rfl
  | @link links place part target rest found hPart hAt hTarget hRest ih =>
      have hNoEnd : ¬(Aim.making = .making ∧ rest = [directoryMark]) := by
        rintro ⟨-, rfl⟩
        subst hFound
        exact no_file_of_mark (Entry.directory_target _ hPlace) hRest
      rw [walk, walkWith_entered hPart hNoEnd, hAt]
      dsimp only
      rw [if_neg hTarget, ih (Entry.directory_target _ hPlace) hFound]

end Follows

end SyntaxSurvey.FileSystem
