import SyntaxSurvey.Proofs.Collector.Escape
import SyntaxSurvey.Proofs.Log
import SyntaxSurvey.Proofs.Survey.Counters
import SyntaxSurvey.Proofs.Text.Lines

/-! Coherence of records. Status, diagnostics and error of a record are written at different places:
by a reading that comes to its end, by one that is given up, and by a drawing that fails. Each of
them leaves a record whose parts agree, and nothing that a survey writes to a record later touches
these parts. -/

namespace SyntaxSurvey

open Grammar (Table)
open Text (isBlank)

namespace Trouble

/-- The name of the kind of a trouble is not blank. -/
def Named (trouble : Trouble) : Prop :=
  ∃ c ∈ trouble.kind.toList, isBlank c = false

/-- Trouble whose kind has a word in it is named. -/
theorem named_of_kind {trouble : Trouble} (name : String) (hKind : trouble.kind = name)
    (hWord : (name.toList.any fun c => !isBlank c) = true) : trouble.Named := by
  obtain ⟨c, hMem, hInk⟩ := List.any_eq_true.mp hWord
  exact ⟨c, by rwa [hKind], by rwa [Bool.not_eq_true'] at hInk⟩

theorem named_file (failure : FileSystem.Failure) : (file failure).Named := by
  obtain ⟨cause, path⟩ := failure
  cases cause with
  | notFound => exact named_of_kind "FileNotFoundError" rfl (by decide)
  | alreadyExists => exact named_of_kind "FileExistsError" rfl (by decide)
  | notDirectory => exact named_of_kind "NotADirectoryError" rfl (by decide)
  | isDirectory => exact named_of_kind "IsADirectoryError" rfl (by decide)
  | nameTooLong => exact named_of_kind "OSError" rfl (by decide)
  | tooManyLinks => exact named_of_kind "OSError" rfl (by decide)
  | nullCharacter => exact named_of_kind "ValueError" rfl (by decide)

theorem named_undecodable (defect : Text.Utf8.Defect) : (undecodable defect).Named :=
  named_of_kind "UnicodeDecodeError" rfl (by decide)

theorem named_unbounded (reason : Number.Quantity.Unbounded) : (unbounded reason).Named := by
  cases reason with
  | infinite => exact named_of_kind "OverflowError" rfl (by decide)
  | notANumber => exact named_of_kind "ValueError" rfl (by decide)

theorem named_renderer (failure : Renderer.Failure) : (renderer failure).Named := by
  cases failure with
  | missing => exact named_of_kind "ExecutableNotFound" rfl (by decide)
  | stopped status complaint => exact named_of_kind "CalledProcessError" rfl (by decide)

theorem named_unbalancedBracket : (parser .unbalancedBracket).Named :=
  named_of_kind "AssertionError" rfl (by decide)

theorem named_remarkAtEnd : (parser .remarkAtEnd).Named :=
  named_of_kind "IndexError" rfl (by decide)

theorem kind_subset_fullKind (trouble : Trouble) :
    trouble.kind.toList ⊆ trouble.fullKind.toList := by
  cases trouble with
  | renderer failure =>
      change _ ⊆ ("graphviz.backend.execute." ++ (renderer failure).kind).toList
      rw [String.toList_append]
      exact List.subset_append_right _ _
  | _ => exact List.Subset.refl _

/-- The kind is part of the line that is shown. -/
theorem kind_subset_line (trouble : Trouble) : trouble.kind.toList ⊆ trouble.line.toList := by
  refine List.Subset.trans trouble.kind_subset_fullKind ?_
  rw [line]
  split
  · exact List.Subset.refl _
  · rw [String.toList_append, String.toList_append, List.append_assoc]
    exact List.subset_append_left _ _

end Trouble

namespace Record

/-- Status, diagnostics and error of a record agree. -/
structure Coherent (record : Record) : Prop where
  settled : record.status = success ∨ record.status = failure
  notPending : record.status ≠ pending
  /-- There is success if and only if there is nothing to complain of. -/
  success_iff : record.status = success ↔ record.diagnostics = [] ∧ record.error = none
  /-- An error has a last line to show, and that line is not blank. -/
  shown : ∀ error, record.error = some error → error ≠ ""
    ∧ ∃ line, Text.lastLine? error = some line ∧ ∃ c ∈ line.toList, isBlank c = false

/-- A record that is stopped by named trouble is coherent. -/
theorem coherent_stoppedBy (record : Record) {trouble : Trouble} (hNamed : trouble.Named) :
    (record.stoppedBy trouble).Coherent where
  settled := Or.inr rfl
  notPending := by simp [stoppedBy, failure, pending]
  success_iff := by simp [stoppedBy, failure, success]
  shown error hError := by
    obtain rfl : trouble.line = error := Option.some.inj hError
    obtain ⟨c, hMem, hWord⟩ := hNamed
    have hLine := trouble.kind_subset_line hMem
    refine ⟨?_, Text.exists_lastLine? ⟨c, hLine, hWord⟩⟩
    rintro hEmpty
    simp [hEmpty] at hLine

/-- A record without an error whose status was chosen by its diagnostics. -/
theorem coherent_of_status {record : Record} (hError : record.error = none)
    (hStatus : record.status = if record.diagnostics.isEmpty then success else failure) :
    record.Coherent := by
  cases hDiagnostics : record.diagnostics with
  | nil =>
      have hSuccess : record.status = success := by simp [hStatus, hDiagnostics]
      exact ⟨Or.inl hSuccess, by simp [hSuccess, success, pending],
        by simp [hSuccess, hDiagnostics, hError], by simp [hError]⟩
  | cons first others =>
      have hFailure : record.status = failure := by simp [hStatus, hDiagnostics]
      exact ⟨Or.inr hFailure, by simp [hFailure, failure, pending],
        by simp [hFailure, hDiagnostics, failure, success], by simp [hError]⟩

/-- An image makes no difference to whether a record is coherent. -/
theorem Coherent.withImage {record : Record} (h : record.Coherent) (image : Option String) :
    Coherent { record with imagePath := image } :=
  ⟨h.settled, h.notPending, h.success_iff, h.shown⟩

/-- A failure that is put down to faults has faults. -/
theorem Coherent.outcome_ne {record : Record} (h : record.Coherent) (took : Duration) :
    Survey.outcome record took ≠ .failedByFaults 0 := by
  rw [Survey.outcome]
  split
  · simp
  · rename_i hFailed
    split
    · simp
    · rename_i hNoError
      intro hNone
      have hDiagnostics : record.diagnostics = [] := by
        simpa only [Log.Event.failedByFaults.injEq, List.length_eq_zero_iff] using hNone
      have hError : record.error = none := by
        cases hSome : record.error with
        | none => rfl
        | some error => simp [error?, hSome, Option.filter, (h.shown error hSome).1] at hNoError
      exact hFailed (beq_iff_eq.mpr (h.success_iff.mpr ⟨hDiagnostics, hError⟩))

end Record

/-- Whoever ends without a tree has recorded why. -/
theorem Collector.diagnostics_ne_nil (c : Collector) (a : Parser.Attempt)
    (h : (c.drive a).1 = .noTree) : (c.drive a).2.diagnostics ≠ [] := by
  cases a with
  | parsed tree => simp [drive] at h
  | broken fault =>
      rw [drive] at h ⊢
      split at h
      · rename_i hSyntactic
        simp [hSyntactic, record]
      · simp at h
  | paused fault resume =>
      obtain ⟨room, hRoom⟩ := c.room_eq_succ
      rw [drive_diagnostics, hRoom, Parser.Attempt.faults]
      split <;> simp

namespace Reading

/-- The diagnostics that are collected of a file, up to its end or to the fault that the parser is
left by. There are none of a file that cannot be read or is no text. -/
def collected (t : Table) (files : FileSystem) (path : Path) : List Diagnostic :=
  match files.read path with
  | .error _ => []
  | .ok bytes =>
    match Document.read bytes with
    | .error _ => []
    | .ok text => ((Collector.fresh path.text Collector.defaultCap).parse t text).2.diagnostics

/-- The record of a reading is coherent, and it agrees with the tree. -/
structure Coherent (reading : Reading) : Prop where
  record : reading.record.Coherent
  tree_of_success : reading.record.status = Record.success → reading.tree.isSome
  noTree_of_error : reading.record.error.isSome → reading.tree = none

variable {path : Path} {record : Record} {log : Log} {trouble : Trouble}

theorem coherent_interrupted (hNamed : trouble.Named) :
    (interrupted path record log trouble).Coherent where
  record := record.coherent_stoppedBy hNamed
  tree_of_success hSuccess := by simp [interrupted, Record.stoppedBy, Record.failure,
    Record.success] at hSuccess
  noTree_of_error _ := rfl

theorem coherent_ofText (t : Table) (path : Path) (hError : record.error = none) (text : String) :
    (ofText t path record text).Coherent := by
  have hNoTree := Collector.diagnostics_ne_nil (Collector.fresh path.text Collector.defaultCap)
    (Parser.attempt t text)
  have hEscaped (fault : Fault)
      (h : ((Collector.fresh path.text Collector.defaultCap).parse t text).1 = .escaped fault) :
      fault = .unbalancedBracket ∨ fault = .remarkAtEnd := by
    obtain ⟨count, s, -, -, ⟨hFault, -⟩ | ⟨hFault, -⟩⟩ := Collector.parse_eq_escaped_iff.mp h
    · exact .inl hFault
    · exact .inr hFault
  rw [← Collector.parse] at hNoTree
  rw [ofText]
  obtain ⟨outcome, c, hParse⟩ : ∃ outcome c,
      (Collector.fresh path.text Collector.defaultCap).parse t text = (outcome, c) := ⟨_, _, rfl⟩
  simp only [hParse] at hNoTree hEscaped ⊢
  have hStatus : (if c.hasDiagnostics then Record.failure else Record.success)
      = if c.diagnostics.isEmpty then Record.success else Record.failure := by
    rw [Collector.hasDiagnostics]
    cases c.diagnostics <;> rfl
  cases outcome with
  | tree found =>
      exact ⟨Record.coherent_of_status hError hStatus, fun _ => rfl, by simp [hError]⟩
  | noTree =>
      refine ⟨Record.coherent_of_status hError hStatus, fun hSuccess => ?_, fun _ => rfl⟩
      simp [Collector.hasDiagnostics, hNoTree rfl, Record.failure, Record.success] at hSuccess
  | escaped fault =>
      rcases hEscaped fault rfl with rfl | rfl
      · exact coherent_interrupted Trouble.named_unbalancedBracket
      · exact coherent_interrupted Trouble.named_remarkAtEnd

/-- Whatever the bytes of a file are, its reading is coherent. -/
theorem coherent_ofFile (t : Table) (files : FileSystem) (path : Path) (took : Duration) :
    (ofFile t files path took).Coherent := by
  rw [ofFile]
  cases files.read path with
  | error failure => exact coherent_interrupted (Trouble.named_file failure)
  | ok bytes =>
      cases hText : Document.read bytes with
      | error defect =>
          simp only [hText]
          exact coherent_interrupted (Trouble.named_undecodable defect)
      | ok text =>
          simp only [hText]
          exact coherent_ofText t path rfl text

/-- The diagnostics of a file are those that were collected for it. -/
theorem ofFile_diagnostics (t : Table) (files : FileSystem) (path : Path) (took : Duration) :
    (ofFile t files path took).record.diagnostics = collected t files path := by
  rw [ofFile, collected]
  cases files.read path with
  | error failure => rfl
  | ok bytes =>
      cases hText : Document.read bytes with
      | error defect =>
          simp only [hText]
          rfl
      | ok text =>
          simp only [hText, ofText]
          obtain ⟨outcome, c⟩ := (Collector.fresh path.text Collector.defaultCap).parse t text
          cases outcome <;> rfl

end Reading

namespace Image

variable {renderer : Renderer} {files : FileSystem} {scale : Number.Quantity}

/-- What keeps a tree from being rendered is named. -/
theorem named_of_render {tree : Tree} {path : Path} {trouble : Trouble}
    (h : render renderer files tree path scale = .error trouble) : trouble.Named := by
  rw [render] at h
  cases hGraph : Graph.ofTree tree scale with
  | error reason =>
      simp only [hGraph, Except.error.injEq] at h
      exact h ▸ Trouble.named_unbounded reason
  | ok graph =>
      cases hImage : renderer graph.text with
      | error failure =>
          simp only [hGraph, hImage, Except.error.injEq] at h
          exact h ▸ Trouble.named_renderer failure
      | ok image =>
          cases hWrite : files.write path image with
          | error failure =>
              simp only [hGraph, hImage, hWrite, Except.error.injEq] at h
              exact h ▸ Trouble.named_file failure
          | ok later => simp [hGraph, hImage, hWrite] at h

/-- What saving an image writes to a record: nothing without a tree, the trouble of a drawing that
fails, or the path of the image. -/
theorem save_record_cases (renderer : Renderer) (files : FileSystem) (record : Record)
    (tree : Option Tree) (directory : Path) (suffix : String) (scale : Number.Quantity)
    (took : Duration) :
    let saved := (save renderer files record tree directory suffix scale took).record
    let path := directory.child (nameFor (.ofString record.filepath) suffix)
    saved = record
      ∨ (∃ shown trouble, tree = some shown
        ∧ render renderer files shown path scale = .error trouble
        ∧ saved = record.stoppedBy trouble)
      ∨ ∃ shown later, tree = some shown ∧ render renderer files shown path scale = .ok later
        ∧ saved = { record with imagePath := some path.text } := by
  cases tree with
  | none => exact Or.inl rfl
  | some shown =>
      dsimp only [save]
      split
      · rename_i trouble hRender
        exact Or.inr (Or.inl ⟨shown, trouble, rfl, hRender, rfl⟩)
      · rename_i later hRender
        exact Or.inr (Or.inr ⟨shown, later, rfl, hRender, rfl⟩)

end Image

namespace Survey

variable {setting : Setting} {plan : Plan} {files : FileSystem} {paths : List Path}
  {s : Survey} {path : Path}

/-- A source was parsed to a tree, and drawing the tree wrote the image with that path. -/
def Illustrated (setting : Setting) (plan : Plan) (files : FileSystem) (path : Path)
    (image : String) : Prop :=
  ∃ directory tree later, plan.imageDirectory? = some directory
    ∧ (reading setting files path).tree = some tree
    ∧ image = (directory.child (Image.nameFor (.ofString path.text) plan.suffix)).text
    ∧ Image.render setting.renderer files tree
        (directory.child (Image.nameFor (.ofString path.text) plan.suffix)) plan.scale = .ok later

theorem coherent_reading (setting : Setting) (files : FileSystem) (path : Path) :
    (reading setting files path).Coherent :=
  Reading.coherent_ofFile setting.table files path (setting.parsing path)

theorem about_reading (setting : Setting) (files : FileSystem) (path : Path) :
    Reading.About path (reading setting files path).record :=
  Reading.ofFile_about setting.table files path (setting.parsing path)

/-- The record that a turn adds is that of the reading, or the one that a drawing has left. -/
theorem added_cases (setting : Setting) (plan : Plan) (s : Survey) (path : Path) :
    added setting plan s path = (reading setting s.files path).record
      ∨ (∃ trouble : Trouble, trouble.Named
        ∧ added setting plan s path = (reading setting s.files path).record.stoppedBy trouble)
      ∨ ∃ image, Illustrated setting plan s.files path image
        ∧ added setting plan s path
          = { (reading setting s.files path).record with imagePath := some image } := by
  have hPath := (about_reading setting s.files path).filepath
  rw [added]
  cases hPlan : plan.imageDirectory? with
  | none => exact Or.inl rfl
  | some directory =>
      have hCases := Image.save_record_cases setting.renderer s.files
        (reading setting s.files path).record (reading setting s.files path).tree directory
        plan.suffix plan.scale (setting.drawing path)
      dsimp only at hCases ⊢
      rcases hCases with hKept | ⟨shown, trouble, -, hRender, hStopped⟩
        | ⟨shown, later, hTree, hRender, hImage⟩
      · exact Or.inl hKept
      · exact Or.inr (Or.inl ⟨trouble, Image.named_of_render hRender, hStopped⟩)
      · rw [hPath] at hRender
        refine Or.inr (Or.inr ⟨_, ⟨directory, shown, later, hPlan, hTree, rfl, hRender⟩, ?_⟩)
        rw [← hPath]
        exact hImage

/-- The record that is added is about the source. -/
theorem filepath_added (setting : Setting) (plan : Plan) (s : Survey) (path : Path) :
    (added setting plan s path).filepath = path.text := by
  have hPath := (about_reading setting s.files path).filepath
  rcases added_cases setting plan s path with hKept | ⟨trouble, -, hStopped⟩ | ⟨image, -, hImage⟩
  · rw [hKept, hPath]
  · rw [hStopped, Record.stoppedBy, hPath]
  · rw [hImage, hPath]

/-- The record that is added is coherent. -/
theorem coherent_added (setting : Setting) (plan : Plan) (s : Survey) (path : Path) :
    (added setting plan s path).Coherent := by
  have hReading := (coherent_reading setting s.files path).record
  rcases added_cases setting plan s path with hKept | ⟨trouble, hNamed, hStopped⟩
    | ⟨image, -, hImage⟩
  · exact hKept ▸ hReading
  · exact hStopped ▸ Record.coherent_stoppedBy _ hNamed
  · exact hImage ▸ hReading.withImage _

/-- An image of a record was drawn from the tree of the source and written. -/
theorem illustrated_of_added {image : String}
    (h : (added setting plan s path).imagePath = some image) :
    Illustrated setting plan s.files path image := by
  have hAbout := about_reading setting s.files path
  rcases added_cases setting plan s path with hKept | ⟨trouble, -, hStopped⟩
    | ⟨drawn, hDrawn, hImage⟩
  · simp [hKept, hAbout.imagePath] at h
  · simp [hStopped, Record.stoppedBy, hAbout.imagePath] at h
  · obtain rfl : drawn = image := by simpa [hImage] using h
    exact hDrawn

/-- After so many turns there are as many records. -/
theorem length_stage {count : Nat} (hCount : count ≤ paths.length) :
    (stage setting plan files paths count).summary.records.length = count :=
  (mirrors_stage count).total.symm.trans (total_stage hCount)

/-- The records after a turn: those from before, one of which may have lost its image, and the one
that the turn added. -/
theorem record_of_visit {index : Nat} {record : Record}
    (hRecord : (s.visit setting plan path).summary.records[index]? = some record) :
    (∃ old, s.summary.records[index]? = some old
      ∧ (record = old ∨ record = { old with imagePath := none }))
    ∨ index = s.summary.records.length ∧ record = added setting plan s path := by
  obtain ⟨summary, hSummary, hVisit⟩ := visit_summary setting plan s path
  have hRecords : (s.visit setting plan path).summary.records
      = summary.records ++ [added setting plan s path] := by rw [hVisit]; rfl
  rw [hRecords, getElem?_concat_eq_some] at hRecord
  rcases hSummary with rfl | ⟨loser, rfl⟩
  · rcases hRecord with hOld | hNew
    · exact Or.inl ⟨record, hOld, Or.inl rfl⟩
    · exact Or.inr hNew
  · simp only [Summary.dropImage, List.length_modify] at hRecord
    rcases hRecord with hOld | hNew
    · rw [List.getElem?_modify] at hOld
      obtain ⟨old, hFound, hEq⟩ := Option.map_eq_some_iff.mp hOld
      refine Or.inl ⟨old, hFound, ?_⟩
      split at hEq
      · exact Or.inr hEq.symm
      · exact Or.inl hEq.symm
    · exact Or.inr hNew

/-- A record at any stage is the one that the turn of its source added, perhaps without its image by
now. -/
theorem record_of_stage {count index : Nat} {record : Record}
    (hRecord : (stage setting plan files paths count).summary.records[index]? = some record) :
    ∃ path image, paths[index]? = some path
      ∧ record = { added setting plan (stage setting plan files paths index) path with
          imagePath := image }
      ∧ (image = none
        ∨ image = (added setting plan (stage setting plan files paths index) path).imagePath) := by
  induction count generalizing record with
  | zero =>
      have hNone : (stage setting plan files paths 0).summary = .empty :=
        summary_outset plan files paths
      simp [hNone, Summary.empty] at hRecord
  | succ count ih =>
      rcases stage_cases setting plan files paths count with hSame | ⟨path, hPath, hVisit⟩
      · exact ih (hSame ▸ hRecord)
      · rw [hVisit] at hRecord
        rcases record_of_visit hRecord with ⟨old, hOld, hKept | hLost⟩ | ⟨hIndex, hNew⟩
        · exact ih (hKept ▸ hOld)
        · obtain ⟨source, image, hSource, rfl, -⟩ := ih hOld
          exact ⟨source, none, hSource, hLost, Or.inl rfl⟩
        · rw [length_stage (List.getElem?_eq_some_iff.mp hPath).1.le] at hIndex
          subst hIndex hNew
          exact ⟨path, _, hPath, rfl, Or.inr rfl⟩

/-- No source is said to have failed by no faults. -/
theorem failedByFaults_notMem_stage (count : Nat) :
    .failedByFaults 0 ∉ (stage setting plan files paths count).log := by
  intro hMem
  induction count with
  | zero =>
      simp only [stage, List.take_zero, visitAll, List.foldl_nil, outset] at hMem
      split at hMem <;> simp [begin, opening] at hMem
  | succ count ih =>
      rcases stage_cases setting plan files paths count with hSame | ⟨path, -, hVisit⟩
      · exact ih (hSame ▸ hMem)
      · rw [hVisit] at hMem
        rcases mem_visit_log hMem rfl with hOld | ⟨index, hEq⟩ | ⟨image, previous, hEq⟩ | hEq
        · exact ih hOld
        · cases hEq
        · cases hEq
        · exact (coherent_added setting plan _ path).outcome_ne _ hEq.symm

/-- The records of a survey that ended with a summary are coherent. -/
structure Cohering (setting : Setting) (plan : Plan) (files : FileSystem) (paths : List Path)
    (summary : Summary) : Prop where
  discovered : Discovery.sources files plan.root plan.suffix = .ok paths
  length : summary.records.length = paths.length
  coherent : ∀ record ∈ summary.records, record.Coherent
  /-- A record names an image only if its source was parsed to a tree in its turn and the tree was
  drawn then. -/
  illustrated : ∀ (index : Nat) (record : Record), summary.records[index]? = some record →
    ∀ image, record.imagePath = some image → ∃ path, paths[index]? = some path
      ∧ record.filepath = path.text
      ∧ Illustrated setting plan (stage setting plan files paths index).files path image

/-- However sources are read and drawn, their records are coherent: in what is read of a single file,
and in what a survey ends with. Whatever a survey logs, it never tells of a failure by no faults. -/
theorem records_coherent (setting : Setting) (plan : Plan) (files : FileSystem) :
    (∀ (t : Table) (path : Path) (took : Duration), (Reading.ofFile t files path took).Coherent
      ∧ (Reading.ofFile t files path took).record.diagnostics = Reading.collected t files path)
    ∧ (∀ summary, (run setting plan files).result = .ok summary →
      ∃ paths, Cohering setting plan files paths summary)
    ∧ ∀ event ∈ (run setting plan files).log, event.text ≠ "  FAILED (0 syntax errors)" := by
  refine ⟨fun t path took => ⟨Reading.coherent_ofFile t files path took,
    Reading.ofFile_diagnostics t files path took⟩, fun summary hRun => ?_, fun event hMem hText => ?_⟩
  · obtain ⟨paths, hSources, rfl, -, -⟩ := run_stage hRun
    refine ⟨paths, hSources, length_stage (Nat.le_refl _), fun record hRecord => ?_,
      fun index record hRecord image hImage => ?_⟩
    · obtain ⟨index, hIndex⟩ := List.mem_iff_getElem?.mp hRecord
      obtain ⟨path, image, -, rfl, -⟩ := record_of_stage hIndex
      exact (coherent_added setting plan _ path).withImage image
    · obtain ⟨path, kept, hPath, rfl, hKept⟩ := record_of_stage hRecord
      refine ⟨path, hPath, filepath_added setting plan _ path, ?_⟩
      rcases hKept with rfl | rfl
      · cases hImage
      · exact illustrated_of_added hImage
  · obtain rfl := Log.Event.eq_failedByFaults_zero_of_text hText
    obtain ⟨paths, count, hStage⟩ := mem_run_log hMem
    exact failedByFaults_notMem_stage count hStage

theorem records_coherent_of_twins :
    ∃ summary paths, (run mirror twinsDrawn twins).result = .ok summary
      ∧ Cohering mirror twinsDrawn twins paths summary := by
  obtain ⟨summary, hRun⟩ := exists_summary_of_twins
  obtain ⟨paths, hCohering⟩ := (records_coherent mirror twinsDrawn twins).2.1 summary hRun
  exact ⟨summary, paths, hRun, hCohering⟩

end Survey

end SyntaxSurvey
