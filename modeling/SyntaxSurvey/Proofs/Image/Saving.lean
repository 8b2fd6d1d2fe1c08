import SyntaxSurvey.Proofs.FileSystem.Updating
import SyntaxSurvey.Proofs.Survey.Coherence

/-! What saving an image does to the file system and to a record, whatever there was before and
wherever links lead. Either the whole image is in its file and the record names it, or the file
system is as it was before. -/

namespace SyntaxSurvey

open Number (Quantity)

theorem Trouble.Named.line_ne_empty {trouble : Trouble} (h : trouble.Named) : trouble.line ≠ "" := by
  obtain ⟨c, hMem, -⟩ := h
  have hLine := trouble.kind_subset_line hMem
  intro hEmpty
  simp [hEmpty] at hLine

namespace Image

variable {renderer : Renderer} {files : FileSystem} {record : Record} {tree : Option Tree}
  {path : Path} {scale : Quantity} {saving : Saving}

/-- The image was written. The file of its path, perhaps a new one, has the bytes that the renderer
made of the tree, nothing else has changed, and the record is the one from before but for the path
of the image. -/
structure Written (renderer : Renderer) (files : FileSystem) (record : Record) (tree : Option Tree)
    (target : Path) (scale : Quantity) (saving : Saving) : Prop where
  file : ∃ shown image place, tree = some shown ∧ drawing? renderer shown scale = some image
    ∧ files.Updated place image saving.files
    ∧ saving.files.find target = .ok (.present place (.file image))
  path : saving.path = some target
  record : saving.record = { record with imagePath := some target.text }

/-- There was no tree, and nothing has changed. -/
structure Skipped (files : FileSystem) (record : Record) (tree : Option Tree) (saving : Saving) :
    Prop where
  treeless : tree = none
  path : saving.path = none
  record : saving.record = record
  files : saving.files = files

/-- There is no image of the tree, or it could not be written. The file system has not changed, and
the record is the one from before but for a failure with its error. -/
structure Failed (renderer : Renderer) (files : FileSystem) (record : Record) (tree : Option Tree)
    (target : Path) (scale : Quantity) (saving : Saving) : Prop where
  cause : ∃ shown, tree = some shown
    ∧ (drawing? renderer shown scale = none
      ∨ ∃ image failure, drawing? renderer shown scale = some image
        ∧ files.write target image = .error failure)
  path : saving.path = none
  record : ∃ line, line ≠ ""
    ∧ saving.record = { record with status := Record.failure, error := some line }
  files : saving.files = files

theorem Written.not_skipped (h : Written renderer files record tree path scale saving) :
    ¬Skipped files record tree saving := by
  intro hSkipped
  simpa [h.path] using hSkipped.path

/-- What is written has not failed. -/
theorem Written.not_failed (h : Written renderer files record tree path scale saving) :
    ¬Failed renderer files record tree path scale saving := by
  intro hFailed
  simpa [h.path] using hFailed.path

theorem Skipped.not_failed (h : Skipped files record tree saving) :
    ¬Failed renderer files record tree path scale saving := by
  intro hFailed
  obtain ⟨shown, hTree, -⟩ := hFailed.cause
  simp [h.treeless] at hTree

/-- A tree that was rendered has an image, and nothing but its file changed. -/
theorem written_of_render {shown : Tree} {later : FileSystem} (hHere : files.Stationed)
    (hRender : render renderer files shown path scale = .ok later) (log : Log) :
    Written renderer files record (some shown) path scale
      ⟨some path, { record with imagePath := some path.text }, log, later⟩ := by
  obtain ⟨image, hDrawing, hWrite⟩ := render_ok hRender
  obtain ⟨place, old, hUpdated, hFound, -⟩ := FileSystem.update_ok hHere hWrite
  exact ⟨⟨shown, image, place, rfl, hDrawing, hUpdated, hFound⟩, rfl, rfl⟩

/-- A tree is not rendered because it cannot be drawn or because the drawing cannot be written. -/
theorem render_error {shown : Tree} {trouble : Trouble}
    (hRender : render renderer files shown path scale = .error trouble) :
    drawing? renderer shown scale = none
      ∨ ∃ image failure, drawing? renderer shown scale = some image
        ∧ files.write path image = .error failure := by
  rw [render] at hRender
  rw [drawing?]
  cases hGraph : Graph.ofTree shown scale with
  | error reason => exact Or.inl rfl
  | ok graph =>
      cases hImage : renderer graph.text with
      | error failure => exact Or.inl (by simp [hImage, Except.toOption])
      | ok image =>
          cases hWrite : files.write path image with
          | error failure =>
              exact Or.inr ⟨image, failure, by simp [hImage, Except.toOption], hWrite⟩
          | ok later => simp [hGraph, hImage, hWrite] at hRender

theorem failed_of_render {shown : Tree} {trouble : Trouble}
    (hRender : render renderer files shown path scale = .error trouble) (log : Log) :
    Failed renderer files record (some shown) path scale
      ⟨none, record.stoppedBy trouble, log, files⟩ :=
  ⟨⟨shown, rfl, render_error hRender⟩, rfl,
    ⟨trouble.line, (named_of_render hRender).line_ne_empty, rfl⟩, rfl⟩

/-- Saving an image ends in one of three ways: it is written, skipped, or it has failed. -/
theorem save_cases_of_stationed (hHere : files.Stationed) (renderer : Renderer) (record : Record)
    (tree : Option Tree) (directory : Path) (suffix : String) (scale : Quantity) (took : Duration) :
    let path := directory.child (nameFor (.ofString record.filepath) suffix)
    let saving := save renderer files record tree directory suffix scale took
    Written renderer files record tree path scale saving
      ∨ Skipped files record tree saving
      ∨ Failed renderer files record tree path scale saving := by
  intro path saving
  cases tree with
  | none => exact Or.inr (Or.inl ⟨rfl, rfl, rfl, rfl⟩)
  | some shown =>
      cases hRender : render renderer files shown path scale with
      | error trouble =>
          have hSaving : saving = ⟨none, record.stoppedBy trouble, saving.log, files⟩ := by
            simp only [saving, save, path, hRender]
          rw [hSaving]
          exact Or.inr (Or.inr (failed_of_render hRender _))
      | ok later =>
          have hSaving : saving
              = ⟨some path, { record with imagePath := some path.text }, saving.log, later⟩ := by
            simp only [saving, save, path, hRender]
          rw [hSaving]
          exact Or.inl (written_of_render hHere hRender _)

/-- Saving the image of a source does exactly one of three things, whatever its record, the tree, the
directory, the scale and the renderer are. It never turns a failure into a success. -/
theorem save_all_or_nothing (hHere : files.Stationed) (renderer : Renderer) (record : Record)
    (tree : Option Tree) (directory : Path) (suffix : String) (scale : Quantity) (took : Duration) :
    let path := directory.child (nameFor (.ofString record.filepath) suffix)
    let saving := save renderer files record tree directory suffix scale took
    (Written renderer files record tree path scale saving
        ∨ Skipped files record tree saving
        ∨ Failed renderer files record tree path scale saving)
      ∧ ¬(Written renderer files record tree path scale saving ∧ Skipped files record tree saving)
      ∧ ¬(Written renderer files record tree path scale saving
        ∧ Failed renderer files record tree path scale saving)
      ∧ ¬(Skipped files record tree saving
        ∧ Failed renderer files record tree path scale saving)
      ∧ (saving.record.succeeded = true → record.succeeded = true) := by
  intro path saving
  have hCases : Written renderer files record tree path scale saving
      ∨ Skipped files record tree saving
      ∨ Failed renderer files record tree path scale saving :=
    save_cases_of_stationed hHere renderer record tree directory suffix scale took
  refine ⟨hCases, fun h => h.1.not_skipped h.2, fun h => h.1.not_failed h.2,
    fun h => h.1.not_failed h.2, fun hSuccess => ?_⟩
  rcases hCases with hWritten | hSkipped | hFailed
  · rwa [hWritten.record] at hSuccess
  · rwa [hSkipped.record] at hSuccess
  · obtain ⟨line, -, hRecord⟩ := hFailed.record
    rw [hRecord] at hSuccess
    cases hSuccess

/-- A directory with an older image of a source. -/
def gallery : FileSystem :=
  ⟨.directory [("out", .directory [("x_tree.png", .file [0])])], []⟩

theorem save_all_or_nothing_of_gallery :
    let record := Record.fresh "x.py" "repo/x.py"
    let tree : Option Tree := some (.node "file_input" [])
    let scale : Quantity := .real defaultScale
    let saving := save Survey.mirror.renderer gallery record tree (.ofString "out") ".py" scale ⟨0⟩
    gallery.Stationed
      ∧ Written Survey.mirror.renderer gallery record tree (.ofString "out/x_tree.png") scale
        saving := by
  intro record tree scale saving
  have hHere : gallery.Stationed := rfl
  have hPath : saving.path.isSome = true := by decide +kernel
  have hName : (Path.ofString "out").child (nameFor (.ofString record.filepath) ".py")
      = .ofString "out/x_tree.png" := by decide +kernel
  refine ⟨hHere, ?_⟩
  rw [← hName]
  rcases (save_all_or_nothing hHere Survey.mirror.renderer record tree (.ofString "out") ".py" scale
    ⟨0⟩).1 with hWritten | hSkipped | hFailed
  · exact hWritten
  · exact absurd hSkipped.treeless (Option.some_ne_none _)
  · rw [hFailed.path] at hPath
    cases hPath

end Image

end SyntaxSurvey
