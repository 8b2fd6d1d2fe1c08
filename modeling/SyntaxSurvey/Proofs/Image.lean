import SyntaxSurvey.Discovery
import SyntaxSurvey.Image
import SyntaxSurvey.Proofs.FileSystem.Writing

/-! Images of single sources: how they are named, and what saving one does. Sources with the same
ending share the name of an image exactly when they share a name. -/

namespace SyntaxSurvey.Image

open Number (Quantity)
open FileSystem (IsName)

variable {suffix : String}

/-- The name of an image is that of the source with another ending. -/
theorem toList_nameFor {source : Path} (hSuffix : Discovery.hasSuffix suffix source = true) :
    ∃ stem, source.name.toList = stem ++ suffix.toList
      ∧ (nameFor source suffix).toList = stem ++ Image.suffix.toList := by
  obtain ⟨stem, hStem⟩ := List.isSuffixOf_iff_suffix.mp hSuffix
  refine ⟨stem, hStem.symm, ?_⟩
  have hEnding : suffix.toList.isSuffixOf source.name.toList = true := hSuffix
  have hLength : source.name.toList.length - suffix.length = stem.length := by
    rw [← hStem, List.length_append, String.length_toList, Nat.add_sub_cancel]
  rw [nameFor, withoutSuffix, String.toList_append, if_pos hEnding, hLength, ← hStem]
  simp

/-- A text that is not short is a name, unless it is split. -/
theorem isName_of_length {name : String} (hUnsplit : '/' ∉ name.toList)
    (hLength : 3 ≤ name.toList.length) : IsName name := by
  have hOther {short : String} (hShort : short.toList.length < 3) : name ≠ short := by
    rintro rfl
    omega
  exact ⟨⟨hOther (by decide), hOther (by decide), hUnsplit⟩, hOther (by decide)⟩

theorem isName_nameFor {source : Path} (hName : IsName source.name)
    (hSuffix : Discovery.hasSuffix suffix source = true) : IsName (nameFor source suffix) := by
  obtain ⟨stem, hSource, hImage⟩ := toList_nameFor hSuffix
  refine isName_of_length ?_ ?_
  · have hStem : '/' ∉ stem := fun hSlash => hName.unsplit (by simp [hSource, hSlash])
    rw [hImage, List.mem_append, not_or]
    exact ⟨hStem, by decide⟩
  · rw [hImage, List.length_append]
    exact Nat.le_trans (by decide) (Nat.le_add_left 9 stem.length)

/-- Two sources share the name of their images exactly when they share their own names. -/
theorem nameFor_eq_iff {source other : Path} (hSource : Discovery.hasSuffix suffix source = true)
    (hOther : Discovery.hasSuffix suffix other = true) :
    nameFor source suffix = nameFor other suffix ↔ source.name = other.name := by
  obtain ⟨stem, hName, hImage⟩ := toList_nameFor hSource
  obtain ⟨otherStem, hOtherName, hOtherImage⟩ := toList_nameFor hOther
  rw [← String.toList_inj, ← String.toList_inj, hName, hImage, hOtherName, hOtherImage]
  simp

/-- The image that the renderer makes of a tree, if it makes one. -/
def drawing? (renderer : Renderer) (tree : Tree) (scale : Quantity) : Option (List UInt8) :=
  match Graph.ofTree tree scale with
  | .error _ => none
  | .ok graph => (renderer graph.text).toOption

/-- A tree that was rendered was drawn, and the drawing was written. -/
theorem render_ok {renderer : Renderer} {files later : FileSystem} {tree : Tree} {path : Path}
    {scale : Quantity} (hRender : render renderer files tree path scale = .ok later) :
    ∃ image, drawing? renderer tree scale = some image ∧ files.write path image = .ok later := by
  rw [render] at hRender
  rw [drawing?]
  cases hGraph : Graph.ofTree tree scale with
  | error reason => simp [hGraph] at hRender
  | ok graph =>
      cases hImage : renderer graph.text with
      | error failure => simp [hGraph, hImage] at hRender
      | ok image =>
          cases hWrite : files.write path image with
          | error failure => simp [hGraph, hImage, hWrite] at hRender
          | ok written =>
              simp only [hGraph, hImage, hWrite, Except.ok.injEq] at hRender
              exact ⟨image, by simp [hImage, Except.toOption], by rw [hWrite, hRender]⟩

section Save

variable (renderer : Renderer) (files : FileSystem) (record : Record) (tree : Option Tree)
  (directory : Path) (suffix : String) (scale : Quantity) (took : Duration)

/-- Saving an image changes neither the name nor the path of a record. Without an image the files
are as before and the record has none; with one, the file was written and the record names it. -/
theorem save_cases :
    let saving := save renderer files record tree directory suffix scale took
    saving.record.filename = record.filename ∧ saving.record.filepath = record.filepath
      ∧ (saving.path = none ∧ saving.files = files ∧ saving.record.imagePath = record.imagePath
        ∨ ∃ shown image, tree = some shown ∧ drawing? renderer shown scale = some image
          ∧ saving.path = some (directory.child (nameFor (.ofString record.filepath) suffix))
          ∧ saving.record.imagePath
            = some (directory.child (nameFor (.ofString record.filepath) suffix)).text
          ∧ files.write (directory.child (nameFor (.ofString record.filepath) suffix)) image
            = .ok saving.files) := by
  cases tree with
  | none => simp [save]
  | some shown =>
      cases hRender : render renderer files shown
          (directory.child (nameFor (.ofString record.filepath) suffix)) scale with
      | error trouble => simp [save, hRender, Record.stoppedBy]
      | ok later =>
          obtain ⟨image, hDrawing, hWrite⟩ := render_ok hRender
          simp [save, hRender, hDrawing, hWrite]

end Save

/-- Why a tree cannot be drawn and written, if it cannot. -/
def trouble? (renderer : Renderer) (files : FileSystem) (tree : Tree) (path : Path)
    (scale : Quantity) : Option Trouble :=
  match render renderer files tree path scale with
  | .error trouble => some trouble
  | .ok _ => none

/-- What goes wrong depends on the files only through whether the image can be written. -/
theorem trouble?_congr {renderer : Renderer} {files others : FileSystem} {tree : Tree} {path : Path}
    {scale : Quantity}
    (hWrite : ∀ image, (files.write path image).map (fun _ => ())
      = (others.write path image).map (fun _ => ())) :
    trouble? renderer files tree path scale = trouble? renderer others tree path scale := by
  rw [trouble?, trouble?, render, render]
  cases Graph.ofTree tree scale with
  | error reason => rfl
  | ok graph =>
      cases hImage : renderer graph.text with
      | error failure => simp [hImage]
      | ok image =>
          have hOutcome := hWrite image
          cases hFiles : files.write path image <;> cases hOthers : others.write path image <;>
            simp_all [Except.map]

/-- What saving an image makes of a record without one, and the path of the image. -/
theorem save_eq (renderer : Renderer) (files : FileSystem) {record : Record} (tree : Option Tree)
    (directory : Path) (suffix : String) (scale : Quantity) (took : Duration)
    (hRecord : record.imagePath = none) :
    let saving := save renderer files record tree directory suffix scale took
    let path := directory.child (nameFor (.ofString record.filepath) suffix)
    let trouble := tree.bind fun shown => trouble? renderer files shown path scale
    let image := if trouble.isSome then none else tree.map fun _ => path
    saving.path = image
      ∧ saving.record = { trouble.elim record record.stoppedBy with
          imagePath := image.map Path.text } := by
  obtain ⟨filename, filepath, status, diagnostics, error, imagePath, parseTime⟩ := record
  cases hRecord
  cases tree with
  | none => exact ⟨rfl, rfl⟩
  | some shown =>
      cases hRender : render renderer files shown
          (directory.child (nameFor (.ofString filepath) suffix)) scale with
      | error trouble => simp [save, trouble?, hRender, Record.stoppedBy]
      | ok later => simp [save, trouble?, hRender]

end SyntaxSurvey.Image
