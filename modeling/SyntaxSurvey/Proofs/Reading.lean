import SyntaxSurvey.Proofs.FileSystem.Lookup
import SyntaxSurvey.Reading

/-! Readings of single files. A reading names its source and has no image, and it depends on the
file system only through the bytes of the file. What is found in a text does not depend on where it
is from. -/

namespace SyntaxSurvey

namespace FileSystem

/-- A file that can be read is read alike in a tree that keeps all. -/
theorem read_keep {fs later : FileSystem} (hPlain : fs.root.Plain) (hLater : later.root.Plain)
    (hHere : later.here = fs.here) (hKeep : fs.root.KeptIn later.root) {path : Path}
    (hPath : path.Normal) {place : Location} {content : List UInt8}
    (hFind : fs.find path = .ok (.present place (.file content))) :
    later.read path = fs.read path := by
  obtain ⟨found, hFound, hKind⟩ := find_keep hPlain hLater hHere hKeep hPath hFind
  cases found with
  | file bytes =>
      cases hKind
      rw [read, read, hFind, hFound]
  | link target => cases hKind
  | directory entries => cases hKind

end FileSystem

/-- What a collector comes to does not depend on the source that it names. -/
theorem Collector.drive_congr {c other : Collector} (hCap : other.cap = c.cap)
    (hDiagnostics : other.diagnostics = c.diagnostics) (a : Parser.Attempt) :
    (other.drive a).1 = (c.drive a).1
      ∧ (other.drive a).2.diagnostics = (c.drive a).2.diagnostics := by
  induction a generalizing c other with
  | parsed tree => exact ⟨rfl, hDiagnostics⟩
  | broken fault =>
      rw [drive, drive]
      split
      · exact ⟨rfl, by simp [record, hDiagnostics]⟩
      · exact ⟨rfl, hDiagnostics⟩
  | paused fault resume ih =>
      have hRecord : (other.record fault).diagnostics = (c.record fault).diagnostics := by
        simp [record, hDiagnostics]
      have hGoes : (other.record fault).goesOnAfter fault = (c.record fault).goesOnAfter fault := by
        rw [goesOnAfter, goesOnAfter, hRecord]
        exact congrArg (fun cap : Int => _ && decide (_ < cap)) hCap
      rw [drive, drive]
      simp only [hGoes]
      split
      · exact ih () hCap hRecord
      · exact ⟨rfl, hRecord⟩

namespace Reading

variable (t : Grammar.Table) (files : FileSystem) (path : Path) (took : Duration)

/-- What a reading says of its source, whatever comes of it. -/
structure About (path : Path) (record : Record) : Prop where
  filename : record.filename = path.name
  filepath : record.filepath = path.text
  imagePath : record.imagePath = none

theorem ofText_about {record : Record} (hRecord : About path record) (text : String) :
    About path (ofText t path record text).record := by
  rw [ofText]
  obtain ⟨outcome, c⟩ := (Collector.fresh path.text Collector.defaultCap).parse t text
  cases outcome <;> exact ⟨hRecord.filename, hRecord.filepath, hRecord.imagePath⟩

/-- What is read of a file is about that file. -/
theorem ofFile_about : About path (ofFile t files path took).record := by
  have hFresh : About path { Record.fresh path.name path.text with parseTime := took.seconds } :=
    ⟨rfl, rfl, rfl⟩
  rw [ofFile]
  cases files.read path with
  | error failure => exact ⟨rfl, rfl, rfl⟩
  | ok bytes =>
      cases hText : Document.read bytes with
      | error defect =>
          simp only [hText]
          exact ⟨rfl, rfl, rfl⟩
      | ok text =>
          simp only [hText]
          exact ofText_about t path hFresh text

/-- Reading depends on the bytes of the file and on nothing else. -/
theorem ofFile_congr {later : FileSystem} (hRead : later.read path = files.read path) :
    ofFile t later path took = ofFile t files path took := by
  rw [ofFile, ofFile, hRead]

/-- What readings share that found the same. -/
structure Agrees (other r : Reading) : Prop where
  status : other.record.status = r.record.status
  diagnostics : other.record.diagnostics = r.record.diagnostics
  tree : other.tree = r.tree

/-- The same text comes to the same, whatever path and record it is read for. -/
theorem ofText_agrees (other : Path) (otherRecord record : Record) (text : String) :
    (ofText t other otherRecord text).Agrees (ofText t path record text) := by
  obtain ⟨hOutcome, hDiagnostics⟩ :
      ((Collector.fresh other.text Collector.defaultCap).parse t text).1
          = ((Collector.fresh path.text Collector.defaultCap).parse t text).1
        ∧ ((Collector.fresh other.text Collector.defaultCap).parse t text).2.diagnostics
          = ((Collector.fresh path.text Collector.defaultCap).parse t text).2.diagnostics := by
    rw [Collector.parse, Collector.parse]
    refine Collector.drive_congr ?_ ?_ _ <;> rfl
  rw [ofText, ofText]
  generalize (Collector.fresh other.text Collector.defaultCap).parse t text = later at *
  generalize (Collector.fresh path.text Collector.defaultCap).parse t text = result at *
  obtain ⟨outcome, d⟩ := later
  obtain ⟨_, c⟩ := result
  obtain rfl := hOutcome
  have hHas : d.hasDiagnostics = c.hasDiagnostics := congrArg (!List.isEmpty ·) hDiagnostics
  cases outcome with
  | tree found => exact ⟨by simp [hHas], hDiagnostics, rfl⟩
  | noTree => exact ⟨by simp [hHas], hDiagnostics, rfl⟩
  | escaped fault => exact ⟨rfl, hDiagnostics, rfl⟩

/-- Files of one text agree, wherever they are. -/
theorem ofFile_agrees {later : FileSystem} {other : Path} (otherTook : Duration)
    {bytes otherBytes : List UInt8} {text : String} (hRead : files.read path = .ok bytes)
    (hOther : later.read other = .ok otherBytes) (hText : Document.read bytes = .ok text)
    (hSame : Document.read otherBytes = .ok text) :
    (ofFile t later other otherTook).Agrees (ofFile t files path took) := by
  rw [ofFile, ofFile, hRead, hOther]
  simp only [hText, hSame]
  exact ofText_agrees t path other _ _ text

end Reading

end SyntaxSurvey
