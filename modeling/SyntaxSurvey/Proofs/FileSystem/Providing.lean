import SyntaxSurvey.Proofs.FileSystem.Directories

/-! Providing a file together with the directory that it is to stand in. The file is there afterwards
exactly if nothing went wrong, and all that was there before still is. -/

namespace SyntaxSurvey.FileSystem

/-- Make a directory and the missing ones that lead to it, and then change or make a file. -/
def provide (fs : FileSystem) (directory target : Path) (change : List UInt8 → List UInt8) :
    FileSystem × Option Failure :=
  match fs.makeDirectories directory with
  | (fs, some failure) => (fs, some failure)
  | (fs, none) =>
    match fs.update target change with
    | .error failure => (fs, some failure)
    | .ok fs => (fs, none)

/-- What is provided: a file with the changed bytes, in a directory that is there as well. -/
structure Provided (fs : FileSystem) (directory target : Path)
    (change : List UInt8 → List UInt8) (later : FileSystem) (trouble : Option Failure) : Prop where
  retains : fs.Retains later
  none_iff : trouble = none
    ↔ later.isDirectory directory = .ok true ∧ later.isFile target = .ok true
  content : trouble = none →
    ∃ place old, later.find target = .ok (.present place (.file (change old)))

variable {fs : FileSystem} {directory target : Path} {change : List UInt8 → List UInt8}

/-- A file is provided with its directory, or there is a failure that tells which of both is
missing. -/
theorem provided (hHere : fs.Stationed) (hDirectory : directory.Normal) (target : Path)
    (change : List UInt8 → List UInt8) :
    Provided fs directory target change (fs.provide directory target change).1
      (fs.provide directory target change).2 := by
  obtain ⟨hRetains, hMade⟩ := makeDirectories_eq_none_iff hHere hDirectory
  cases hMake : fs.makeDirectories directory with
  | mk made failed =>
      rw [hMake] at hRetains hMade
      cases failed with
      | some failure =>
          have hNone : made.isDirectory directory ≠ .ok true :=
            fun hOk => by simpa using hMade.mpr hOk
          simp only [provide, hMake]
          exact ⟨hRetains, by simp [hNone], by simp⟩
      | none =>
          have hThere : made.isDirectory directory = .ok true := hMade.mp rfl
          have hStays := hRetains.stationed hHere
          cases hUpdate : made.update target change with
          | error failure =>
              have hNoFile := not_isFile_of_update hStays hUpdate
              simp only [provide, hMake, hUpdate]
              exact ⟨hRetains, by simp [hNoFile], by simp⟩
          | ok later =>
              obtain ⟨place, old, hUpdated, hFind, -⟩ := update_ok hStays hUpdate
              have hFile : later.isFile target = .ok true :=
                isFile_eq_true.mpr ⟨place, _, hFind⟩
              have hStill := hUpdated.retains.isDirectory hThere
              simp only [provide, hMake, hUpdate]
              exact ⟨hRetains.trans hUpdated.retains, by simp [hStill, hFile],
                fun _ => ⟨place, old, hFind⟩⟩

end SyntaxSurvey.FileSystem
