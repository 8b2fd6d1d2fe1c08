import SyntaxSurvey.Proofs.Survey.Alone
import SyntaxSurvey.Proofs.Survey.Ownership

/-! How a survey that ends with a summary has begun: its sources were found, and the directory for
images was made if it has one. What was read of a source before is still read of it then. -/

namespace SyntaxSurvey

open Number (Quantity)

/-- A record that is another one, or the other one without its image. -/
theorem Record.eq_but_image {record other : Record} {p : Prop}
    (h : record = other ∨ record = { other with imagePath := none } ∧ p) :
    record = { other with imagePath := record.imagePath } := by
  rcases h with rfl | ⟨rfl, -⟩ <;> rfl

/-- The time that a source takes is told in its record and nowhere else in a reading. -/
theorem Reading.ofFile_took (t : Grammar.Table) {files others : FileSystem} {path : Path}
    (took other : Duration) (hRead : others.read path = files.read path) :
    (ofFile t others path other).tree = (ofFile t files path took).tree
      ∧ (ofFile t others path other).record
        = { (ofFile t files path took).record with parseTime := other.seconds } := by
  rw [ofFile, ofFile, hRead]
  cases files.read path with
  | error failure => exact ⟨rfl, rfl⟩
  | ok bytes =>
      cases hText : Document.read bytes with
      | error defect =>
          simp only [hText]
          exact ⟨rfl, rfl⟩
      | ok text =>
          simp only [hText, ofText]
          obtain ⟨outcome, c⟩ := (Collector.fresh path.text Collector.defaultCap).parse t text
          cases outcome <;> exact ⟨rfl, rfl⟩

namespace Plan

/-- The plan that is asked for by a root, a mode and a directory for images, all as they are
written. -/
def asked (root : String) (mode : Mode) (suffix : String) (output : Option String)
    (scale : Quantity) : Plan :=
  ⟨.ofString root, mode, suffix, output.map .ofString, scale⟩

structure Normal (plan : Plan) : Prop where
  root : plan.root.Normal
  directory : ∀ directory, plan.imageDirectory? = some directory → directory.Normal

/-- Whatever is asked for, the plan is normal. -/
theorem normal_asked (root : String) (mode : Mode) (suffix : String) (output : Option String)
    (scale : Quantity) : (asked root mode suffix output scale).Normal where
  root := Path.normal_ofString root
  directory directory hPlan := by
    cases mode with
    | parse => cases hPlan
    | images =>
        cases output with
        | none =>
            cases hPlan
            exact Path.normal_ofString _
        | some output =>
            cases hPlan
            exact Path.normal_ofString output

end Plan

namespace Survey

variable {setting other : Setting} {plan : Plan} {directory : Path} {files others made : FileSystem}
  {summary : Summary} {paths : List Path} {path : Path}

/-- Two settings with the same table read the same of a file with the same bytes. -/
theorem reading_alike (hTable : other.table = setting.table)
    (hRead : others.read path = files.read path) :
    (reading other others path).tree = (reading setting files path).tree
      ∧ (reading other others path).record
        = { (reading setting files path).record with
          parseTime := (other.parsing path).seconds } := by
  rw [reading, reading, hTable]
  exact Reading.ofFile_took setting.table (setting.parsing path) (other.parsing path) hRead

/-- A survey of a tree without links that has sources and a directory for images. -/
structure Opened (plan : Plan) (directory : Path) (files : FileSystem) (paths : List Path)
    (made : FileSystem) : Prop where
  planned : plan.imageDirectory? = some directory
  normal : plan.Normal
  plain : files.root.Plain
  sources : Discovery.sources files plan.root plan.suffix = .ok paths
  make : files.makeDirectories directory = (made, none)

/-- A survey for images that has a summary was opened, and then it visited its sources. -/
theorem exists_opened (hNormal : plan.Normal) (hPlain : files.root.Plain)
    (hPlan : plan.imageDirectory? = some directory)
    (hRun : (run setting plan files).result = .ok summary) :
    ∃ paths made, Opened plan directory files paths made
      ∧ summary = ((opening plan directory files paths).visitAll setting plan paths).summary
      ∧ (run setting plan files).files
        = ((opening plan directory files paths).visitAll setting plan paths).files := by
  obtain ⟨paths, made, hSources, hMake, hSummary, -, hFiles⟩ := run_ok hPlan hRun
  exact ⟨paths, made, ⟨hPlan, hNormal, hPlain, hSources, hMake⟩, hSummary, hFiles⟩

namespace Opened

variable (h : Opened plan directory files paths made)

include h

theorem made_site : FileSystem.Made files directory made
    ∧ Site plan directory (files.absolute directory).parts made := by
  have hDirectory := h.normal.directory directory h.planned
  obtain ⟨hMade, hFound⟩ := FileSystem.makeDirectories_ok h.plain hDirectory h.make
  exact ⟨hMade, h.planned, hDirectory, hMade.plain, hFound⟩

theorem isSource (hPath : path ∈ paths) : Discovery.IsSource files plan.suffix path :=
  Discovery.isSource_of_mem h.plain h.normal.root h.sources hPath

/-- The same is read of a source before and after the directory is made. -/
theorem read_eq (hPath : path ∈ paths) : made.read path = files.read path := by
  obtain ⟨hMade, -⟩ := h.made_site
  obtain ⟨goal, content, hFile⟩ := (h.isSource hPath).isFile
  exact FileSystem.read_keep h.plain hMade.plain hMade.here hMade.kept (h.isSource hPath).normal
    hFile

/-- After the turns of the first sources, the record of each is that of the source by itself. -/
theorem settled (setting : Setting) (count : Nat)
    (hClear : ∀ path ∈ paths, Clear plan (files.absolute directory).parts made path) :
    Settled setting plan directory (files.absolute directory).parts made (paths.take count)
      ((opening plan directory files paths).visitAll setting plan (paths.take count)) := by
  obtain ⟨-, hSite⟩ := h.made_site
  rw [opening, h.make]
  exact hSite.settled_run setting _ fun path hPath => hClear path (List.mem_of_mem_take hPath)

/-- After all sources were visited all is settled. -/
theorem settled_all (setting : Setting)
    (hClear : ∀ path ∈ paths, Clear plan (files.absolute directory).parts made path) :
    Settled setting plan directory (files.absolute directory).parts made paths
      ((opening plan directory files paths).visitAll setting plan paths) := by
  have hSettled := h.settled setting paths.length hClear
  rwa [List.take_length] at hSettled

end Opened

theorem exists_ok_of_toBool {ending : Except Trouble Summary} (hOk : ending.toBool = true) :
    ∃ summary, ending = .ok summary := by
  cases ending with
  | error trouble => cases hOk
  | ok summary => exact ⟨summary, rfl⟩

end Survey

end SyntaxSurvey
