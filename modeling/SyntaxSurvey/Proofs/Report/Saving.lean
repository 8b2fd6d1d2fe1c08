import SyntaxSurvey.Proofs.FileSystem.Providing
import SyntaxSurvey.Proofs.Json.Pieces
import SyntaxSurvey.Report

/-! Saving a report. A report is a file that is provided with the directory that it is to stand in. A
report whose texts are strings, and whose integers are not too long, is written as a whole. -/

namespace SyntaxSurvey

open Text (Raw)

section Texts

variable {τ σ : Type} (f : τ → σ)

theorem Json.map_ofText? (s : Option τ) :
    (Json.ofText? s).map f = Json.ofText? (s.map f) := by
  cases s <;> rfl

theorem Diagnostic.toJson_map (d : Diagnostic τ) : (d.map f).toJson = d.toJson.map f :=
  rfl

theorem Record.toJson_map (r : Record τ) : (r.map f).toJson = r.toJson.map f := by
  have hDiagnostics : (r.diagnostics.map (Diagnostic.map f)).map Diagnostic.toJson
      = (r.diagnostics.map Diagnostic.toJson).map (Json.map f) := by
    rw [List.map_map, List.map_map]
    exact List.map_congr_left fun d _ => d.toJson_map f
  simp only [Record.map, Record.toJson, Json.map, Json.mapFields, Json.mapItems_eq,
    Json.map_ofText?, hDiagnostics]

/-- Other texts of a report are other texts of its value. -/
theorem Report.toJson_map (r : Report τ) : (r.map f).toJson = r.toJson.map f := by
  have hRecords : (r.summary.records.map (Record.map f)).map Record.toJson
      = (r.summary.records.map Record.toJson).map (Json.map f) := by
    rw [List.map_map, List.map_map]
    exact List.map_congr_left fun record _ => record.toJson_map f
  simp only [Report.map, Report.toJson, Summary.map, Summary.fields, Json.map, Json.mapFields,
    Json.mapItems_eq, Json.ofInt, hRecords]

theorem Record.map_id : Record.map (id : τ → τ) = id := by
  have hDiagnostic : Diagnostic.map (id : τ → τ) = id := rfl
  funext r
  simp [Record.map, hDiagnostic]

theorem Report.map_id (r : Report τ) : r.map id = r := by
  simp [Report.map, Summary.map, Record.map_id]

theorem Report.map_map {υ : Type} (g : σ → υ) (r : Report τ) :
    (r.map f).map g = r.map (g ∘ f) := by
  simp [Report.map, Summary.map, Record.map, Diagnostic.map, Function.comp_def]

end Texts

namespace Report

/-- The bytes of a report, and what keeps the rest of it from being encoded. -/
def encoded (limit : Option Nat) (r : Report Raw) : List UInt8 × Option Json.Obstacle :=
  Json.encodePieces limit (Json.pieces 0 r.toJson)

/-- Every text of a report is free of halves of pairs, and no integer in it has more digits than are
allowed. -/
structure IsWritable (limit : Option Nat) (r : Report Raw) : Prop where
  isText : ∀ s ∈ r.toJson.texts, s.IsText
  within : ∀ q ∈ r.toJson.numbers, q.exceeded? limit = none

def shown (r : Report Raw) : Report :=
  r.map Raw.shown

variable {limit : Option Nat}

theorem isWritable_iff {r : Report Raw} :
    r.IsWritable limit ↔ ∀ piece ∈ Json.pieces 0 r.toJson, piece.IsWritable limit := by
  rw [Json.forall_isWritable_iff]
  exact ⟨fun h => ⟨h.isText, h.within⟩, fun h => ⟨h.1, h.2⟩⟩

/-- Saving is providing a file with what can be encoded. -/
theorem save_eq (limit : Option Nat) (r : Report Raw) (files : FileSystem) (path : Path) :
    r.save files path limit =
      ((files.provide path.parent path fun _ => (r.encoded limit).1).1,
        ((files.provide path.parent path fun _ => (r.encoded limit).1).2.map Trouble.file).or
          ((r.encoded limit).2.map .unwritable)) := by
  cases hMake : files.makeDirectories path.parent with
  | mk made failed =>
      cases failed with
      | some failure => simp [save, FileSystem.provide, hMake]
      | none =>
          cases hUpdate : made.update path fun _ => (r.encoded limit).1 with
          | error failure =>
              simp [encoded] at hUpdate
              simp [save, encoded, FileSystem.provide, FileSystem.write, hMake, hUpdate]
          | ok later =>
              simp [encoded] at hUpdate
              simp [save, encoded, FileSystem.provide, FileSystem.write, hMake, hUpdate]

/-- Where the file of a report can be made, it is left with all that could be encoded. -/
theorem find_save {files : FileSystem} (hHere : files.Stationed) {path : Path}
    (hPath : path.Normal) {r : Report Raw}
    (hWritten : ∀ failure, (r.save files path limit).2 ≠ some (.file failure)) :
    (∃ place, (r.save files path limit).1.find path
        = .ok (.present place (.file (r.encoded limit).1)))
      ∧ (r.save files path limit).2 = (r.encoded limit).2.map .unwritable := by
  have hProvided := FileSystem.provided hHere hPath.parent path fun _ => (r.encoded limit).1
  rw [save_eq] at hWritten ⊢
  cases hTrouble : (files.provide path.parent path fun _ => (r.encoded limit).1).2 with
  | some failure => exact absurd (by rw [hTrouble]; rfl) (hWritten failure)
  | none =>
      obtain ⟨place, -, hFind⟩ := hProvided.content hTrouble
      exact ⟨⟨place, hFind⟩, rfl⟩

/-- A report of strings is what is shown of it. -/
theorem shown_map_ofString (r : Report) : (r.map Raw.ofString).shown = r := by
  have hSame : Raw.shown ∘ Raw.ofString = id := funext Raw.shown_ofString
  rw [shown, map_map, hSame, map_id]

/-- Strings have no halves in them, so that without a limit of digits all of them can be written. -/
theorem isWritable_map_ofString (r : Report) : (r.map Raw.ofString).IsWritable none where
  isText s hMem := by
    rw [toJson_map, Json.texts_map] at hMem
    obtain ⟨text, -, rfl⟩ := List.mem_map.mp hMem
    exact Raw.isText_ofChars text.toList
  within q _ := by
    cases q <;> rfl

/-- A report that can be written is encoded as a whole. -/
theorem IsWritable.encoded {r : Report Raw} (h : r.IsWritable limit) :
    r.encoded limit = (Text.Utf8.encode r.shown.text.toList, none) := by
  rw [Report.encoded, Json.encodePieces_of_isWritable (isWritable_iff.mp h), ← Json.pieces_map,
    ← toJson_map, text, Json.text, String.toList_ofList]
  rfl

/-- What a run of the program saves has strings for its texts, so that only the file can be trouble.
-/
theorem save_map_ofString (r : Report) (files : FileSystem) (path : Path) :
    (r.map Raw.ofString).save files path none =
      ((files.provide path.parent path fun _ => Text.Utf8.encode r.text.toList).1,
        (files.provide path.parent path fun _ => Text.Utf8.encode r.text.toList).2.map .file) := by
  rw [save_eq, r.isWritable_map_ofString.encoded, shown_map_ofString]
  simp

end Report

end SyntaxSurvey
