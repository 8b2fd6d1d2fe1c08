import SyntaxSurvey.Proofs.Report.Lossless
import SyntaxSurvey.Proofs.Survey.Isolation

/-! Surveys apart from lengths of time. Two turns of one source that read the same bytes, and whose
drawings go wrong in the same way or not at all, do the same to the summary, to the owners of the
images and to the log, however long they take. -/

namespace SyntaxSurvey

open Number (Quantity)

def Record.untimed (r : Record) : Record :=
  r.retimed fun _ => .integer 0

def Log.Event.untimed : Log.Event → Log.Event
  | .drawn image _ => .drawn image ⟨0⟩
  | .succeeded _ => .succeeded ⟨0⟩
  | .finished _ => .finished ⟨0⟩
  | event => event

def Log.untimed (log : Log) : Log :=
  log.map Event.untimed

@[simp] theorem Log.untimed_nil : Log.untimed [] = [] :=
  rfl

@[simp] theorem Log.untimed_cons (event : Event) (log : Log) :
    Log.untimed (event :: log) = event.untimed :: log.untimed :=
  rfl

@[simp] theorem Log.untimed_append (log more : Log) :
    Log.untimed (log ++ more) = log.untimed ++ more.untimed :=
  List.map_append

theorem Summary.records_untimed (s : Summary) : s.untimed.records = s.records.map Record.untimed :=
  rfl

/-- A record may be deprived of its time before or after it is added. -/
theorem Summary.untimed_add (s : Summary) (record : Record) :
    (s.add record).untimed = s.untimed.add record.untimed := by
  simp [untimed, retimed, add, Record.untimed, Record.retimed, Record.succeeded]

theorem Summary.untimed_dropImage (s : Summary) (index : Nat) :
    (s.dropImage index).untimed = s.untimed.dropImage index := by
  have hRecords : (s.records.modify index fun record => { record with imagePath := none }).map
        Record.untimed
      = (s.records.map Record.untimed).modify index
        fun record => { record with imagePath := none } := by
    refine List.ext_getElem? fun place => ?_
    simp only [List.getElem?_map, List.getElem?_modify]
    cases s.records[place]? with
    | none => rfl
    | some record =>
        by_cases hPlace : index = place
        · simp only [hPlace, if_true, Option.map_some]
          rfl
        · simp only [hPlace, if_false, Option.map_some]
          rfl
  exact congrArg (fun records => { s with records := records }) hRecords

/-- A record with another time is the same without its time. -/
theorem Record.untimed_of_time {record other : Record} {time : Quantity}
    (hOther : other = { record with parseTime := time }) : other.untimed = record.untimed := by
  rw [hOther]
  rfl

theorem Survey.untimed_outcome (record : Record) (took : Duration) :
    (outcome record took).untimed = outcome record.untimed ⟨0⟩ := by
  have hSucceeded : record.untimed.succeeded = record.succeeded := rfl
  have hError : record.untimed.error? = record.error? := rfl
  rw [outcome, outcome, hSucceeded, hError]
  split
  · rfl
  · split <;> rfl

/-- The time that a source takes is not told while it is read. -/
theorem Reading.ofFile_log (t : Grammar.Table) {files others : FileSystem} {path : Path}
    (took other : Duration) (hRead : others.read path = files.read path) :
    (ofFile t others path other).log = (ofFile t files path took).log := by
  rw [ofFile, ofFile, hRead]
  cases files.read path with
  | error failure => rfl
  | ok bytes =>
      cases hText : Document.read bytes with
      | error defect => simp only [hText, interrupted]
      | ok text =>
          simp only [hText, ofText]
          obtain ⟨outcome, c⟩ := (Collector.fresh path.text Collector.defaultCap).parse t text
          cases outcome <;> rfl

/-- What saving an image says: whether there is a tree and whether all of it, and what came of the
drawing. -/
theorem Image.save_log (renderer : Renderer) (files : FileSystem) (record : Record)
    (tree : Option Tree) (directory : Path) (suffix : String) (scale : Quantity) (took : Duration) :
    (save renderer files record tree directory suffix scale took).log
      = match tree with
        | none => [.treeMissing record.filepath]
        | some shown =>
          let path := directory.child (nameFor (.ofString record.filepath) suffix)
          (if record.diagnostics.isEmpty then [] else [.treeIncomplete record.filepath])
            ++ match trouble? renderer files shown path scale with
              | some trouble =>
                [.drawingFailed record.filepath trouble, .drawingFailure trouble]
              | none => [.drawn path.name took] := by
  cases tree with
  | none => rfl
  | some shown =>
      cases hRender : render renderer files shown
          (directory.child (nameFor (.ofString record.filepath) suffix)) scale with
      | error trouble => simp [save, trouble?, hRender]
      | ok later => simp [save, trouble?, hRender]

namespace Survey

variable {setting other : Setting} {plan : Plan} {directory : Path} {s t : Survey} {path : Path}

/-- Two turns of a source that read the same, and whose drawings come to the same trouble or to
none, save the same image. -/
theorem saving_path_alike (hTable : other.table = setting.table) (hPath : path.Normal)
    (hRead : t.files.read path = s.files.read path)
    (hTrouble : trouble? other plan directory t.files path
      = trouble? setting plan directory s.files path) :
    (t.saving other plan directory path).path = (s.saving setting plan directory path).path := by
  rw [(saving_eq t hPath).1, (saving_eq s hPath).1, image?, image?, hTrouble,
    (reading_alike hTable hRead).1]

/-- What the turn of a source says of its drawing. -/
theorem saving_log (s : Survey) (hPath : path.Normal) :
    (s.saving setting plan directory path).log
      = match (reading setting s.files path).tree with
        | none => [.treeMissing path.text]
        | some _ =>
          (if (reading setting s.files path).record.diagnostics.isEmpty then []
            else [.treeIncomplete path.text])
            ++ match trouble? setting plan directory s.files path with
              | some trouble => [.drawingFailed path.text trouble, .drawingFailure trouble]
              | none => [.drawn (imageOf plan directory path).name (setting.drawing path)] := by
  have hFilepath : (reading setting s.files path).record.filepath = path.text :=
    (Reading.ofFile_about setting.table s.files path (setting.parsing path)).filepath
  have hSave := Image.save_log setting.renderer s.files (reading setting s.files path).record
    (reading setting s.files path).tree directory plan.suffix plan.scale (setting.drawing path)
  rw [hFilepath, Path.ofString_text hPath] at hSave
  refine hSave.trans ?_
  rw [trouble?]
  cases (reading setting s.files path).tree <;> rfl

/-- Two surveys in progress that differ in lengths of time and in files only. -/
structure Alike (s t : Survey) : Prop where
  summary : t.summary.untimed = s.summary.untimed
  owners : t.owners = s.owners
  log : t.log.untimed = s.log.untimed

namespace Alike

variable (h : Alike s t)

include h

theorem length_eq : t.summary.records.length = s.summary.records.length := by
  have hRecords := congrArg (fun summary => summary.records.length) h.summary
  simpa [Summary.records_untimed] using hRecords

theorem filepath_eq (index : Nat) :
    t.summary.records[index]?.map Record.filepath
      = s.summary.records[index]?.map Record.filepath := by
  have hRecords := congrArg (fun summary => summary.records[index]?.map Record.filepath) h.summary
  simpa [Summary.records_untimed, Record.untimed, Record.retimed, Function.comp_def] using hRecords

/-- Surveys that are alike stay so when they log alike. -/
theorem tell {log more : Log} (hLog : more.untimed = log.untimed) (files others : FileSystem) :
    Alike { s with log := s.log ++ log, files := files }
      { t with log := t.log ++ more, files := others } :=
  ⟨h.summary, h.owners, by simp [h.log, hLog]⟩

theorem disown (image : String) (path : Path) :
    Alike (s.disown image path) (t.disown image path) := by
  rw [Survey.disown, Survey.disown, h.owners]
  cases s.owners.lookup image with
  | none => exact h
  | some index =>
      refine ⟨?_, rfl, ?_⟩
      · simp only
        rw [Summary.untimed_dropImage, Summary.untimed_dropImage, h.summary]
      · simp [h.log, h.filepath_eq]

theorem own (image : String) : Alike (s.own image) (t.own image) :=
  ⟨h.summary, by rw [Survey.own, Survey.own, h.owners, h.length_eq], h.log⟩

/-- Surveys that are alike stay so when records that are alike but for their times are added. -/
theorem close {record later : Record} (hRecord : later.untimed = record.untimed)
    (took more : Duration) : Alike (s.close record took) (t.close later more) where
  summary := by
    rw [Survey.close, Survey.close, Summary.untimed_add, Summary.untimed_add, h.summary, hRecord]
  owners := h.owners
  log := by simp [Survey.close, h.log, untimed_outcome, hRecord]

/-- What two turns of a source say is the same, lengths of time aside. -/
theorem foretold (hTable : other.table = setting.table) (hPath : path.Normal)
    (hRead : t.files.read path = s.files.read path)
    (hTrouble : trouble? other plan directory t.files path
      = trouble? setting plan directory s.files path) :
    (t.foretold other plan directory path).untimed
      = (s.foretold setting plan directory path).untimed := by
  have hReading : (reading other t.files path).log = (reading setting s.files path).log := by
    rw [reading, reading, hTable]
    exact Reading.ofFile_log setting.table _ _ hRead
  have hSaving : (t.saving other plan directory path).log.untimed
      = (s.saving setting plan directory path).log.untimed := by
    obtain ⟨hTree, hRecord⟩ := reading_alike hTable hRead
    rw [saving_log t hPath, saving_log s hPath, hTree, hRecord, hTrouble]
    cases (reading setting s.files path).tree with
    | none => rfl
    | some tree =>
        rw [Log.untimed_append, Log.untimed_append]
        cases trouble? setting plan directory s.files path <;> rfl
  rw [Survey.foretold, Survey.foretold, ← reading, ← reading]
  simp only [Log.untimed_append, Log.untimed_cons, h.length_eq, hReading, hSaving]

/-- Two turns of a source that read the same, and whose drawings come to the same trouble or to
none, leave alike surveys alike. -/
theorem visit (hPlan : plan.imageDirectory? = some directory) (hTable : other.table = setting.table)
    (hPath : path.Normal) (hRead : t.files.read path = s.files.read path)
    (hTrouble : trouble? other plan directory t.files path
      = trouble? setting plan directory s.files path) :
    Alike (s.visit setting plan path) (t.visit other plan path) := by
  have hTold := h.foretold hTable hPath hRead hTrouble
  rw [visit_eq hPlan, visit_eq hPlan, saving_path_alike hTable hPath hRead hTrouble]
  refine Alike.close ?_ ?_ _ _
  · cases (s.saving setting plan directory path).path with
    | none => exact h.tell hTold _ _
    | some image => exact ((h.tell hTold _ _).disown image.name path).own image.name
  · rw [(saving_eq s hPath).2, (saving_eq t hPath).2]
    exact Record.untimed_of_time (drawn_alike hTable hRead hTrouble)

end Alike

end Survey

end SyntaxSurvey
