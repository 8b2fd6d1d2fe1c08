import SyntaxSurvey.Proofs.Image
import SyntaxSurvey.Proofs.Reading
import SyntaxSurvey.Survey

/-! One turn of a survey that draws images. The turn adds a record, perhaps takes the image of an
earlier record away, and tells of that in the log; nothing else in the log is about it. -/

namespace SyntaxSurvey

namespace Log

/-- Events that come from one part only. -/
def From (channel : Channel) (log : Log) : Prop :=
  ∀ event ∈ log, event.channel = channel

theorem From.append {channel : Channel} {log more : Log} (h : log.From channel)
    (h' : more.From channel) : From channel (log ++ more) :=
  List.forall_mem_append.mpr ⟨h, h'⟩

theorem From.cons {channel : Channel} {event : Event} {log : Log} (hEvent : event.channel = channel)
    (h : log.From channel) : From channel (event :: log) :=
  List.forall_mem_cons.mpr ⟨hEvent, h⟩

theorem from_nil (channel : Channel) : From channel [] :=
  nofun

/-- Whether an event tells that the image of the source written so was overwritten. -/
def Event.overwrites (source : String) : Event → Bool
  | .overwritten _ _ previous => previous == source
  | _ => false

/-- Events none of which tells of an overwritten image. -/
def Quiet (log : Log) : Prop :=
  ∀ source, ∀ event ∈ log, Event.overwrites source event = false

/-- A quiet log says of no source that its image was overwritten. -/
theorem Quiet.countP_eq {log : Log} (h : log.Quiet) (source : String) :
    log.countP (Event.overwrites source) = 0 := by
  rw [List.countP_eq_zero]
  intro event hEvent
  simp [h source event hEvent]

theorem Quiet.append {log more : Log} (h : log.Quiet) (h' : more.Quiet) :
    Quiet (log ++ more) := by
  intro source event hEvent
  rcases List.mem_append.mp hEvent with hLog | hMore
  · exact h source event hLog
  · exact h' source event hMore

theorem Quiet.cons {event : Event} {log : Log}
    (hEvent : ∀ source, Event.overwrites source event = false) (h : log.Quiet) :
    Quiet (event :: log) := by
  intro source other hOther
  rcases List.mem_cons.mp hOther with rfl | hLog
  · exact hEvent source
  · exact h source other hLog

theorem quiet_nil : Quiet [] :=
  fun _ _ hEvent => absurd hEvent List.not_mem_nil

/-- Only the survey itself tells of overwritten images. -/
theorem From.quiet {channel : Channel} {log : Log} (h : log.From channel)
    (hChannel : channel ≠ .survey) : log.Quiet := by
  intro source event hEvent
  have hFrom := h event hEvent
  cases event with
  | overwritten image path previous => exact absurd hFrom.symm hChannel
  | _ => rfl

end Log

open Log (From Quiet)

theorem Collector.from_log (c : Collector) : c.log.From .parsing := by
  intro event hEvent
  obtain ⟨diagnostic, -, rfl⟩ := List.mem_map.mp hEvent
  rfl

theorem Reading.from_interrupted (path : Path) (record : Record) {log : Log}
    (hLog : log.From .parsing) (trouble : Trouble) :
    From .parsing (interrupted path record log trouble).log :=
  hLog.append (.cons rfl (.cons rfl (Log.from_nil _)))

theorem Reading.from_ofText (t : Grammar.Table) (path : Path) (record : Record) (text : String) :
    From .parsing (ofText t path record text).log := by
  rw [ofText]
  obtain ⟨outcome, c⟩ := (Collector.fresh path.text Collector.defaultCap).parse t text
  have hRead : From .parsing (.read path text.length :: c.log) := .cons rfl c.from_log
  cases outcome with
  | tree found => exact hRead
  | noTree => exact hRead
  | escaped fault => exact from_interrupted path _ hRead _

/-- Reading a file logs on the channel of parsing only. -/
theorem Reading.from_ofFile (t : Grammar.Table) (files : FileSystem) (path : Path)
    (took : Duration) : From .parsing (ofFile t files path took).log := by
  rw [ofFile]
  cases files.read path with
  | error failure => exact from_interrupted path _ (Log.from_nil _) _
  | ok bytes =>
      cases hText : Document.read bytes with
      | error defect =>
          simp only [hText]
          exact from_interrupted path _ (Log.from_nil _) _
      | ok text =>
          simp only [hText]
          exact from_ofText t path _ text

/-- Saving an image logs on the channel of rendering only. -/
theorem Image.from_save (renderer : Renderer) (files : FileSystem) (record : Record)
    (tree : Option Tree) (directory : Path) (suffix : String) (scale : Number.Quantity)
    (took : Duration) :
    From .rendering (save renderer files record tree directory suffix scale took).log := by
  cases tree with
  | none => exact .cons rfl (Log.from_nil _)
  | some shown =>
      have hWarning : From .rendering (if record.diagnostics.isEmpty then []
          else [.treeIncomplete record.filepath]) := by
        split
        · exact Log.from_nil _
        · exact .cons rfl (Log.from_nil _)
      rw [save]
      split
      · exact hWarning.append (.cons rfl (.cons rfl (Log.from_nil _)))
      · exact hWarning.append (.cons rfl (Log.from_nil _))

namespace Survey

theorem quiet_outcome (record : Record) (took : Duration) : Quiet [outcome record took] := by
  refine .cons (fun source => ?_) Log.quiet_nil
  rw [outcome]
  split
  · rfl
  · split <;> rfl

/-- A turn of a survey: a source, and the name of its image if one was saved. -/
structure Turn where
  source : Path
  image : Option String

section Turns

variable (setting : Setting) (plan : Plan) (directory : Path)

def saving (s : Survey) (path : Path) : Image.Saving :=
  let reading := Reading.ofFile setting.table s.files path (setting.parsing path)
  Image.save setting.renderer s.files reading.record reading.tree directory plan.suffix plan.scale
    (setting.drawing path)

def turn (s : Survey) (path : Path) : Turn :=
  ⟨path, (s.saving setting plan directory path).path.map Path.name⟩

def turns (s : Survey) : List Path → List Turn
  | [] => []
  | path :: paths => s.turn setting plan directory path :: (s.visit setting plan path).turns paths

/-- What a turn says before it comes to the image. -/
def foretold (s : Survey) (path : Path) : Log :=
  .processing (s.summary.records.length + 1) path
    :: (Reading.ofFile setting.table s.files path (setting.parsing path)).log
    ++ (s.saving setting plan directory path).log

/-- What is logged before an image is saved is quiet. -/
theorem quiet_foretold (s : Survey) (path : Path) :
    Quiet (s.foretold setting plan directory path) := by
  have hReading := Reading.from_ofFile setting.table s.files path (setting.parsing path)
  have hSaving : From .rendering (s.saving setting plan directory path).log :=
    Image.from_save _ _ _ _ _ _ _ _
  exact ((hReading.quiet (by decide)).cons fun _ => rfl).append (hSaving.quiet (by decide))

end Turns

variable {setting : Setting} {plan : Plan} {directory : Path}

/-- A turn for images saves one and makes its source the owner, if there is one to own. -/
theorem visit_eq (hPlan : plan.imageDirectory? = some directory) (s : Survey) (path : Path) :
    s.visit setting plan path
      = (match (s.saving setting plan directory path).path with
        | none =>
          { s with
            log := s.log ++ s.foretold setting plan directory path
            files := (s.saving setting plan directory path).files }
        | some image =>
          ({ s with
            log := s.log ++ s.foretold setting plan directory path
            files := (s.saving setting plan directory path).files }
            : Survey).disown image.name path |>.own image.name).close
        (s.saving setting plan directory path).record (setting.parsing path) := by
  rw [visit]
  simp only [hPlan, illustrate, foretold, List.append_assoc]
  rfl

/-- A turn saves no image and changes no file, or it writes what the renderer makes of the tree of its
source. -/
theorem saving_outcome (s : Survey) {path : Path} (hPath : path.Normal) :
    let saving := s.saving setting plan directory path
    let image := directory.child (Image.nameFor path plan.suffix)
    (saving.path = none ∧ saving.files = s.files ∧ saving.record.imagePath = none)
      ∨ ∃ tree bytes, (Reading.ofFile setting.table s.files path (setting.parsing path)).tree
          = some tree
        ∧ Image.drawing? setting.renderer tree plan.scale = some bytes
        ∧ saving.path = some image ∧ saving.record.imagePath = some image.text
        ∧ s.files.write image bytes = .ok saving.files := by
  have hAbout := Reading.ofFile_about setting.table s.files path (setting.parsing path)
  obtain ⟨-, -, hCases⟩ := Image.save_cases setting.renderer s.files
    (Reading.ofFile setting.table s.files path (setting.parsing path)).record
    (Reading.ofFile setting.table s.files path (setting.parsing path)).tree directory plan.suffix
    plan.scale (setting.drawing path)
  rw [hAbout.filepath, hAbout.imagePath, Path.ofString_text hPath] at hCases
  exact hCases

theorem turn_image (s : Survey) (path : Path) :
    (s.turn setting plan directory path).image
      = (s.saving setting plan directory path).path.map Path.name :=
  rfl

/-- What a list with one more element has at an index. -/
theorem getElem?_concat_eq_some {α : Type} {list : List α} {last other : α} {index : Nat} :
    (list ++ [last])[index]? = some other
      ↔ list[index]? = some other ∨ index = list.length ∧ other = last := by
  rw [List.getElem?_append]
  split
  · rename_i hLt
    constructor
    · exact Or.inl
    · rintro (hOld | ⟨rfl, -⟩)
      · exact hOld
      · exact absurd hLt (Nat.lt_irrefl _)
  · rename_i hNotLt
    have hNone : list[index]? = none := List.getElem?_eq_none (Nat.le_of_not_lt hNotLt)
    simp only [hNone, reduceCtorEq, false_or, List.getElem?_singleton,
      Option.ite_none_right_eq_some, Option.some.injEq, eq_comm]
    constructor
    · rintro ⟨hZero, hEq⟩
      exact ⟨by omega, hEq⟩
    · rintro ⟨hLength, hEq⟩
      exact ⟨by omega, hEq⟩

/-- The record whose image a turn takes away, by its index. -/
def loser? (s : Survey) (turn : Turn) : Option Nat :=
  turn.image.bind fun name => s.owners.lookup name

/-- A turn changes files only by saving an image. -/
theorem visit_files (hPlan : plan.imageDirectory? = some directory) (s : Survey) (path : Path) :
    (s.visit setting plan path).files = (s.saving setting plan directory path).files := by
  rw [visit_eq hPlan]
  cases (s.saving setting plan directory path).path with
  | none => rfl
  | some image =>
      simp only [close, own, disown]
      split <;> rfl

/-- A turn gives its image to the record that it adds. -/
theorem visit_owners (hPlan : plan.imageDirectory? = some directory) (s : Survey) (path : Path)
    (name : String) :
    (s.visit setting plan path).owners.lookup name
      = if (s.turn setting plan directory path).image = some name
        then some s.summary.records.length else s.owners.lookup name := by
  rw [visit_eq hPlan, turn_image]
  cases (s.saving setting plan directory path).path with
  | none => simp [close]
  | some image =>
      have hOwners (t : Survey) (record : Record) (took : Duration) :
          (((t.disown image.name path).own image.name).close record took).owners.lookup name
            = if image.name = name then some t.summary.records.length
              else t.owners.lookup name := by
        simp only [close, own, disown]
        split <;>
          simp only [FileSystem.Entry.lookup_cons_eq, Summary.dropImage, List.length_modify,
            eq_comm]
      simpa using hOwners _ _ _

/-- A turn adds its record, and takes the image away from the record that it belonged to. -/
theorem visit_records (hPlan : plan.imageDirectory? = some directory) (s : Survey) (path : Path) :
    (s.visit setting plan path).summary.records
      = (match s.loser? (s.turn setting plan directory path) with
        | none => s.summary.records
        | some index => (s.summary.dropImage index).records)
        ++ [(s.saving setting plan directory path).record] := by
  rw [visit_eq hPlan, loser?, turn_image]
  cases (s.saving setting plan directory path).path with
  | none => rfl
  | some image =>
      simp only [Option.map_some, Option.bind_some, close, own, disown]
      cases s.owners.lookup image.name with
      | none => rfl
      | some index => rfl

/-- A turn adds one record. -/
theorem length_visit_records (hPlan : plan.imageDirectory? = some directory) (s : Survey)
    (path : Path) :
    (s.visit setting plan path).summary.records.length = s.summary.records.length + 1 := by
  rw [visit_records hPlan]
  cases s.loser? (s.turn setting plan directory path) with
  | none => simp
  | some index => simp [Summary.dropImage]

/-- The records after a turn: those from before, of which one may be without its image, and the
new one. -/
theorem getElem?_visit_records (hPlan : plan.imageDirectory? = some directory) {s : Survey}
    {path : Path} {index : Nat} {record : Record} :
    (s.visit setting plan path).summary.records[index]? = some record
      ↔ (∃ old, s.summary.records[index]? = some old
          ∧ record = if s.loser? (s.turn setting plan directory path) = some index
            then { old with imagePath := none } else old)
        ∨ index = s.summary.records.length
          ∧ record = (s.saving setting plan directory path).record := by
  rw [visit_records hPlan, getElem?_concat_eq_some]
  cases s.loser? (s.turn setting plan directory path) with
  | none => simp [eq_comm]
  | some loser =>
      have hLength : (s.summary.dropImage loser).records.length = s.summary.records.length := by
        simp [Summary.dropImage]
      rw [hLength]
      refine or_congr_left ?_
      simp only [Summary.dropImage, List.getElem?_modify, Option.some.injEq]
      cases s.summary.records[index]? with
      | none => simp
      | some old => by_cases hLoser : loser = index <;> simp [hLoser, eq_comm]

/-- What a turn says when its image takes the place of another one. -/
def overtaking (s : Survey) (turn : Turn) : Log :=
  match turn.image, s.loser? turn with
  | some image, some index =>
    [.overwritten image turn.source ((s.summary.records[index]?.map Record.filepath).getD "")]
  | _, _ => []

/-- A turn says nothing of images that it overtakes, or it names one with its former owner. -/
theorem overtaking_cases (s : Survey) (turn : Turn) :
    s.overtaking turn = []
      ∨ ∃ image previous, s.overtaking turn = [.overwritten image turn.source previous] := by
  rw [overtaking]
  cases turn.image with
  | none => exact Or.inl rfl
  | some image =>
      cases s.loser? turn with
      | none => exact Or.inl rfl
      | some index => exact Or.inr ⟨image, _, rfl⟩

/-- All that a turn says. -/
theorem visit_log_eq (hPlan : plan.imageDirectory? = some directory) (s : Survey) (path : Path) :
    (s.visit setting plan path).log
      = s.log ++ s.foretold setting plan directory path
        ++ s.overtaking (s.turn setting plan directory path)
        ++ [outcome (s.saving setting plan directory path).record (setting.parsing path)] := by
  rw [visit_eq hPlan, overtaking, loser?, turn_image]
  cases (s.saving setting plan directory path).path with
  | none => simp [close]
  | some image =>
      simp only [Option.map_some, Option.bind_some, close, own, disown]
      cases s.owners.lookup image.name with
      | none => simp
      | some index => rfl

/-- A turn tells of one image that was overwritten if it takes one away, and of none otherwise. -/
theorem visit_log (hPlan : plan.imageDirectory? = some directory) (s : Survey) (path : Path)
    (source : String) :
    (s.visit setting plan path).log.countP (Log.Event.overwrites source)
      = s.log.countP (Log.Event.overwrites source)
        + match s.loser? (s.turn setting plan directory path) with
          | none => 0
          | some index =>
            if (s.summary.records[index]?.map Record.filepath).getD "" = source then 1 else 0 := by
  have hBefore := (quiet_foretold setting plan directory s path).countP_eq source
  have hAfter := (quiet_outcome (s.saving setting plan directory path).record
    (setting.parsing path)).countP_eq source
  rw [visit_log_eq hPlan, List.countP_append, List.countP_append, List.countP_append, hBefore,
    hAfter, overtaking, loser?]
  cases (s.turn setting plan directory path).image with
  | none => simp
  | some image =>
      simp only [Option.bind_some]
      cases s.owners.lookup image with
      | none => simp
      | some index => simp [List.countP_singleton, Log.Event.overwrites]

end Survey

end SyntaxSurvey
