import SyntaxSurvey.Proofs.FileSystem.Writing

/-! A directory into which files are written. All directories stay, no new ones come, and whatever is
not directly in that directory is as it was; so it does not matter for what comes next which files
have been written already. -/

namespace SyntaxSurvey.FileSystem

/-- A later file system, which differs at most in the files directly in the directory at a place. -/
structure Steady (place : Location) (earlier now : FileSystem) : Prop where
  here : now.here = earlier.here
  plain : now.root.Plain
  apart : ∀ other, (∀ name, other ≠ place ++ [name]) →
    now.root.kind? other = earlier.root.kind? other
  directories : ∀ other, now.root.kind? other = some .directory
    ↔ earlier.root.kind? other = some .directory

namespace Steady

variable {place : Location} {earlier now : FileSystem}

theorem refl (hPlain : earlier.root.Plain) : Steady place earlier earlier :=
  ⟨rfl, hPlain, fun _ _ => rfl, fun _ => Iff.rfl⟩

section Found

variable (h : Steady place earlier now) (hPlain : earlier.root.Plain)

include h hPlain

/-- Whatever is not directly in the directory is found where it was found. -/
theorem find_apart {path : Path} (hPath : path.Normal) {goal : Location} {entry : Entry}
    (hFind : earlier.find path = .ok (.present goal entry))
    (hGoal : now.root.kind? goal = earlier.root.kind? goal) :
    ∃ found, now.find path = .ok (.present goal found) ∧ found.kind = entry.kind :=
  find_transfer hPlain h.plain h.here (fun other => (h.directories other).mpr) hPath hFind hGoal

/-- Directories are found again while only files of one directory change. -/
theorem find_directory {directory : Path} (hDirectory : directory.Normal) {goal : Location}
    {entries : List (String × Entry)}
    (hFind : earlier.find directory = .ok (.present goal (.directory entries))) :
    ∃ inner, now.find directory = .ok (.present goal (.directory inner)) := by
  have hKind : earlier.root.kind? goal = some .directory := by
    have hLeads := ((findFor_eq_present_iff hPlain hDirectory).mp hFind).2
    exact Entry.kind?_eq_directory.mpr ⟨entries, hLeads.at?⟩
  obtain ⟨found, hFound, hEq⟩ := h.find_apart hPlain hDirectory hFind
    (by rw [hKind, (h.directories goal).mpr hKind])
  cases found with
  | file content => cases hEq
  | link target => cases hEq
  | directory inner => exact ⟨inner, hFound⟩

/-- Files elsewhere are found again with their content while only files of one directory change. -/
theorem find_file {path : Path} (hPath : path.Normal) {goal : Location} {content : List UInt8}
    (hFind : earlier.find path = .ok (.present goal (.file content)))
    (hApart : ∀ name, goal ≠ place ++ [name]) :
    now.find path = .ok (.present goal (.file content)) := by
  obtain ⟨found, hFound, hEq⟩ := h.find_apart hPlain hPath hFind (h.apart goal hApart)
  cases found with
  | file bytes =>
      cases hEq
      exact hFound
  | link target => cases hEq
  | directory inner => cases hEq

/-- A file that is not directly in the directory is read as before. -/
theorem read_eq {path : Path} (hPath : path.Normal) {goal : Location} {content : List UInt8}
    (hFind : earlier.find path = .ok (.present goal (.file content)))
    (hApart : ∀ name, goal ≠ place ++ [name]) : now.read path = earlier.read path := by
  rw [read, read, h.find_file hPlain hPath hFind hApart, hFind]

/-- One more file has been written into the directory. -/
theorem write {later : FileSystem} {directory : Path} (hDirectory : directory.Normal)
    {entries : List (String × Entry)}
    (hFind : earlier.find directory = .ok (.present place (.directory entries))) {name : String}
    (hName : IsName name) {content : List UInt8}
    (hWrite : now.write (directory.child name) content = .ok later) :
    Steady place earlier later := by
  obtain ⟨inner, hNow⟩ := h.find_directory hPlain hDirectory hFind
  obtain ⟨hHere, hLater, hNoDirectory, hPut⟩ :=
    write_child_ok h.plain hDirectory hName hNow hWrite
  refine ⟨hHere.trans h.here, hLater, fun other hOther => ?_, fun other => ?_⟩
  · rw [hPut, if_neg (hOther name), h.apart other hOther]
  · rw [hPut, ← h.directories]
    by_cases hNew : other = place ++ [name]
    · subst hNew
      simp [hNoDirectory]
    · rw [if_neg hNew]

end Found

end Steady

end SyntaxSurvey.FileSystem
