import SyntaxSurvey.Proofs.Survey.Opening

/-! Isolation of sources. Two surveys by the same plan, of different file systems, come to the same
about every source that they have in common: whatever else there is, and whatever becomes of it, is
not seen in its record. Only its image may have been overwritten by a source of the same name. -/

namespace SyntaxSurvey

open FileSystem (Entry Location)
open Number (Quantity)

/-- Records that agree about their source. They may differ in the image and in the time it took. -/
structure Record.Agrees (record other : Record) : Prop where
  filename : other.filename = record.filename
  filepath : other.filepath = record.filepath
  status : other.status = record.status
  diagnostics : other.diagnostics = record.diagnostics
  error : other.error = record.error

/-- There is nothing in the directory for images of a plan that has one. -/
def Plan.Vacant (plan : Plan) (files : FileSystem) : Prop :=
  ∀ directory, plan.imageDirectory? = some directory →
    files.root.at? (files.absolute directory).parts = none
      ∨ files.root.at? (files.absolute directory).parts = some (.directory [])

namespace Survey

variable {setting : Setting} {plan : Plan} {directory : Path} {files made : FileSystem}
  {summary : Summary} {paths : List Path} {path : Path}

/-- The record of a source as if it were the only one of a survey. -/
def alone (setting : Setting) (plan : Plan) (files : FileSystem) (path : Path) : Record :=
  match plan.imageDirectory? with
  | none => (reading setting files path).record
  | some directory => drawn setting plan directory (files.makeDirectories directory).1 path

/-- Without a directory for images, a source alone is a source that was read. -/
theorem alone_of_no_directory (hPlan : plan.imageDirectory? = none) :
    alone setting plan files path = (reading setting files path).record := by
  rw [alone, hPlan]

/-- With a directory for images that was made, a source alone is drawn into it. -/
theorem Opened.alone_eq (h : Opened plan directory files paths made) :
    alone setting plan files path = drawn setting plan directory made path := by
  rw [alone, h.planned]
  simp only [h.make]

theorem drawn_told (setting : Setting) (plan : Plan) (directory : Path) (files : FileSystem)
    (path : Path) :
    (drawn setting plan directory files path).filename = path.name
      ∧ (drawn setting plan directory files path).filepath = path.text := by
  have hAbout := Reading.ofFile_about setting.table files path (setting.parsing path)
  rw [drawn]
  cases trouble? setting plan directory files path <;>
    exact ⟨hAbout.filename, hAbout.filepath⟩

/-- A source alone has a record about it. -/
theorem alone_told (setting : Setting) (plan : Plan) (files : FileSystem) (path : Path) :
    (alone setting plan files path).filename = path.name
      ∧ (alone setting plan files path).filepath = path.text := by
  have hAbout := Reading.ofFile_about setting.table files path (setting.parsing path)
  rw [alone]
  cases plan.imageDirectory? with
  | none => exact ⟨hAbout.filename, hAbout.filepath⟩
  | some directory => exact drawn_told setting plan directory _ path

/-- Where there is no directory for images before, there is nothing in it. -/
theorem kind?_eq_none_of_vacant (hVacant : plan.Vacant files)
    (hPlan : plan.imageDirectory? = some directory) (name : String) :
    files.root.kind? ((files.absolute directory).parts ++ [name]) = none := by
  rw [Entry.kind?_eq_none, Entry.at?_concat]
  rcases hVacant directory hPlan with hNone | hEmpty
  · simp [hNone]
  · simp [hEmpty, Entry.child?]

/-- A source does not stand in a directory that was absent or empty. -/
theorem Opened.clear_of_vacant (h : Opened plan directory files paths made)
    (hVacant : plan.Vacant files) (hPath : path ∈ paths) :
    Clear plan (files.absolute directory).parts made path := by
  obtain ⟨hMade, -⟩ := h.made_site
  have hSource := h.isSource hPath
  refine clear_of_isSource h.plain hMade hSource fun goal content hFind name => ?_
  have hLeads := ((FileSystem.findFor_eq_present_iff h.plain hSource.normal).mp hFind).2
  have hKind := Entry.kind?_eq_file.mpr hLeads.at?
  rintro rfl
  rw [kind?_eq_none_of_vacant hVacant h.planned] at hKind
  cases hKind

/-- Each record of a survey is that of its source alone, but for an image that a later source of the
same name has overwritten. -/
structure Faithful (setting : Setting) (plan : Plan) (files : FileSystem) (paths : List Path)
    (summary : Summary) : Prop where
  discovered : Discovery.sources files plan.root plan.suffix = .ok paths
  length : summary.records.length = paths.length
  records : ∀ (index : Nat) path record, paths[index]? = some path →
    summary.records[index]? = some record →
      record = alone setting plan files path
        ∨ record = { alone setting plan files path with imagePath := none }
          ∧ Overtaken plan.suffix paths index path

/-- A survey with a summary has found its sources. -/
theorem sources_of_run (hRun : (run setting plan files).result = .ok summary) :
    ∃ paths, Discovery.sources files plan.root plan.suffix = .ok paths := by
  rw [run] at hRun
  cases hSources : Discovery.sources files plan.root plan.suffix with
  | error trouble => simp [hSources] at hRun
  | ok paths => exact ⟨paths, rfl⟩

/-- A survey with a summary is faithful to what each source is alone. -/
theorem faithful_of_run (hNormal : plan.Normal) (hPlain : files.root.Plain)
    (hVacant : plan.Vacant files) (hRun : (run setting plan files).result = .ok summary) :
    ∃ paths, Faithful setting plan files paths summary := by
  cases hPlan : plan.imageDirectory? with
  | none =>
      obtain ⟨paths, hSources⟩ := sources_of_run hRun
      obtain ⟨same, hSame, hRecords, -⟩ := run_of_no_directory setting hPlan hSources
      obtain rfl : same = summary := by simpa [hSame] using hRun
      refine ⟨paths, hSources, by simp [hRecords], fun index path record hPath hRecord => ?_⟩
      rw [hRecords, List.getElem?_map, hPath] at hRecord
      rw [alone_of_no_directory hPlan]
      exact Or.inl (Option.some.inj hRecord).symm
  | some directory =>
      obtain ⟨paths, made, hOpened, rfl, -⟩ := exists_opened hNormal hPlain hPlan hRun
      have hSettled := hOpened.settled_all setting fun path => hOpened.clear_of_vacant hVacant
      refine ⟨paths, hOpened.sources, hSettled.length, fun index path record hPath hRecord => ?_⟩
      rw [hOpened.alone_eq]
      exact hSettled.records index path record hPath hRecord

namespace Faithful

variable (h : Faithful setting plan files paths summary)

include h

theorem map_told : summary.records.map (fun record => (record.filename, record.filepath))
    = paths.map fun path => (path.name, path.text) := by
  refine List.ext_getElem? fun index => ?_
  rw [List.getElem?_map, List.getElem?_map]
  cases hPath : paths[index]? with
  | none =>
      have hLength := List.getElem?_eq_none_iff.mp hPath
      rw [← h.length] at hLength
      simp [List.getElem?_eq_none hLength]
  | some path =>
      have hLt := (List.getElem?_eq_some_iff.mp hPath).1
      rw [← h.length] at hLt
      obtain ⟨hFilename, hFilepath⟩ := alone_told setting plan files path
      rcases h.records index path _ hPath (List.getElem?_eq_getElem hLt) with hSame | ⟨hSame, -⟩ <;>
        simp [List.getElem?_eq_getElem hLt, hSame, hFilename, hFilepath]

/-- A source whose image was taken has a namesake. -/
theorem exists_namesake (hPlain : files.root.Plain) (hRoot : plan.root.Normal) {index : Nat}
    {record : Record} (hPath : paths[index]? = some path)
    (hRecord : summary.records[index]? = some record)
    (hImage : record.imagePath ≠ (alone setting plan files path).imagePath) :
    ∃ namesake ∈ paths, namesake ≠ path ∧ namesake.name = path.name := by
  rcases h.records index path record hPath hRecord with rfl | ⟨-, later, other, hLater, hOther, hName⟩
  · exact absurd rfl hImage
  have hOtherMem := List.mem_of_getElem? hOther
  have hSource := Discovery.isSource_of_mem hPlain hRoot h.discovered (List.mem_of_getElem? hPath)
  have hOtherSource := Discovery.isSource_of_mem hPlain hRoot h.discovered hOtherMem
  refine ⟨other, hOtherMem, ?_,
    (Image.nameFor_eq_iff hOtherSource.hasSuffix hSource.hasSuffix).mp hName⟩
  rintro rfl
  have hNodup := Discovery.nodup_sources hPlain h.discovered
  obtain ⟨hLt, hIndex⟩ := List.getElem?_eq_some_iff.mp hPath
  obtain ⟨hLaterLt, hLaterIndex⟩ := List.getElem?_eq_some_iff.mp hOther
  have hSame := hNodup.getElem_inj_iff.mp (hIndex.trans hLaterIndex.symm)
  omega

end Faithful

section Two

variable {other : Setting} {others otherMade : FileSystem} {otherPaths : List Path}
  {otherSummary : Summary}

/-- The same directory is made on the way in both, where there was nothing in either. -/
theorem Opened.taken_iff (h : Opened plan directory files paths made)
    (h' : Opened plan directory others otherPaths otherMade) (hHere : others.here = files.here)
    {place : Location} (hNone : files.root.kind? place = none)
    (hOthersNone : others.root.kind? place = none) :
    made.root.kind? place = some .directory ↔ otherMade.root.kind? place = some .directory := by
  have hDirectory := h.normal.directory directory h.planned
  rw [FileSystem.makeDirectories_directory_iff h.plain hDirectory h.make hNone,
    FileSystem.makeDirectories_directory_iff h'.plain hDirectory h'.make hOthersNone,
    FileSystem.Passes, FileSystem.Passes, FileSystem.start, FileSystem.start, hHere]

/-- A source that is read and drawn alike has the same record, its time aside. -/
theorem drawn_alike (hTable : other.table = setting.table)
    (hRead : others.read path = files.read path)
    (hTrouble : trouble? other plan directory others path
      = trouble? setting plan directory files path) :
    drawn other plan directory others path
      = { drawn setting plan directory files path with
        parseTime := (other.parsing path).seconds } := by
  obtain ⟨hTree, hRecord⟩ := reading_alike hTable hRead
  rw [drawn, drawn, image?, image?, hTrouble, hTree, hRecord]
  cases trouble? setting plan directory files path <;> rfl

/-- With the same bytes in two file systems, a source alone has the same record but for the time. -/
theorem Opened.drawn_alike (h : Opened plan directory files paths made)
    (h' : Opened plan directory others otherPaths otherMade) (hTable : other.table = setting.table)
    (hRenderer : other.renderer = setting.renderer) (hHere : others.here = files.here)
    (hVacant : plan.Vacant files) (hOthersVacant : plan.Vacant others) (hPath : path ∈ paths)
    (hOtherPath : path ∈ otherPaths) (hRead : others.read path = files.read path) :
    drawn other plan directory otherMade path
      = { drawn setting plan directory made path with
        parseTime := (other.parsing path).seconds } := by
  obtain ⟨hMade, hSite⟩ := h.made_site
  obtain ⟨hOtherMade, hOtherSite⟩ := h'.made_site
  obtain ⟨entries, hFind⟩ := hSite.found
  obtain ⟨otherEntries, hOtherFind⟩ := hOtherSite.found
  have hSource := h.isSource hPath
  have hNone := kind?_eq_none_of_vacant hVacant h.planned (Image.nameFor path plan.suffix)
  have hOtherNone := kind?_eq_none_of_vacant hOthersVacant h.planned (Image.nameFor path plan.suffix)
  rw [FileSystem.absolute_congr hHere] at hOtherFind hOtherNone
  have hReadMade : otherMade.read path = made.read path := by
    rw [h.read_eq hPath, h'.read_eq hOtherPath, hRead]
  refine Survey.drawn_alike hTable hReadMade ?_
  exact trouble?_congr hRenderer (reading_alike hTable hReadMade).1 hMade.plain hOtherMade.plain
    hSite.normal (Image.isName_nameFor hSource.isName hSource.hasSuffix) hFind hOtherFind
    (h.taken_iff h' hHere hNone hOtherNone)

/-- A source that two surveys have in common is the same alone in both, its time aside. -/
theorem alone_alike (hTable : other.table = setting.table)
    (hRenderer : other.renderer = setting.renderer) (hNormal : plan.Normal)
    (hPlain : files.root.Plain) (hOthers : others.root.Plain) (hHere : others.here = files.here)
    (hVacant : plan.Vacant files) (hOthersVacant : plan.Vacant others)
    (hRun : (run setting plan files).result = .ok summary)
    (hOtherRun : (run other plan others).result = .ok otherSummary)
    (hSources : Discovery.sources files plan.root plan.suffix = .ok paths)
    (hOtherSources : Discovery.sources others plan.root plan.suffix = .ok otherPaths)
    (hPath : path ∈ paths) (hOtherPath : path ∈ otherPaths)
    (hRead : others.read path = files.read path) :
    alone other plan others path
      = { alone setting plan files path with parseTime := (other.parsing path).seconds } := by
  cases hPlan : plan.imageDirectory? with
  | none =>
      rw [alone_of_no_directory hPlan, alone_of_no_directory hPlan]
      exact (reading_alike hTable hRead).2
  | some directory =>
      obtain ⟨_, made, hOpened, -⟩ := exists_opened hNormal hPlain hPlan hRun
      obtain ⟨_, otherMade, hOtherOpened, -⟩ := exists_opened hNormal hOthers hPlan hOtherRun
      obtain rfl := Except.ok.inj (hSources.symm.trans hOpened.sources)
      obtain rfl := Except.ok.inj (hOtherSources.symm.trans hOtherOpened.sources)
      rw [hOpened.alone_eq, hOtherOpened.alone_eq]
      exact hOpened.drawn_alike hOtherOpened hTable hRenderer hHere hVacant hOthersVacant hPath
        hOtherPath hRead

end Two

/-- How surveys by one plan of two file systems fit together. Each has one record for each path that
it discovers, in order; and about a path that both discover, with the same bytes, the records agree,
and so do the images unless another source has the same name. -/
structure Isolated (plan : Plan) (files others : FileSystem) (paths otherPaths : List Path)
    (summary otherSummary : Summary) : Prop where
  discovered : Discovery.sources files plan.root plan.suffix = .ok paths
  otherDiscovered : Discovery.sources others plan.root plan.suffix = .ok otherPaths
  told : summary.records.map (fun record => (record.filename, record.filepath))
    = paths.map fun path => (path.name, path.text)
  otherTold : otherSummary.records.map (fun record => (record.filename, record.filepath))
    = otherPaths.map fun path => (path.name, path.text)
  distinct : paths.Nodup ∧ otherPaths.Nodup
  agree : ∀ (index otherIndex : Nat) path record otherRecord, paths[index]? = some path →
    otherPaths[otherIndex]? = some path → others.read path = files.read path →
    summary.records[index]? = some record → otherSummary.records[otherIndex]? = some otherRecord →
      record.Agrees otherRecord
      ∧ (otherRecord.imagePath ≠ record.imagePath →
        ∃ namesake, (namesake ∈ paths ∨ namesake ∈ otherPaths) ∧ namesake ≠ path
          ∧ namesake.name = path.name)

/-- Whatever else two file systems hold, and however it fails to be read, parsed or drawn, surveys
of both by one plan come to the same about the sources that they have in common. -/
theorem sources_isolated {setting other : Setting} (hTable : other.table = setting.table)
    (hRenderer : other.renderer = setting.renderer) (root : String) (mode : Mode) (suffix : String)
    (output : Option String) (scale : Quantity) {files others : FileSystem}
    {summary otherSummary : Summary} (hPlain : files.root.Plain) (hOthers : others.root.Plain)
    (hHere : others.here = files.here)
    (hVacant : (Plan.asked root mode suffix output scale).Vacant files)
    (hOthersVacant : (Plan.asked root mode suffix output scale).Vacant others)
    (hRun : (run setting (Plan.asked root mode suffix output scale) files).result = .ok summary)
    (hOtherRun : (run other (Plan.asked root mode suffix output scale) others).result
      = .ok otherSummary) :
    ∃ paths otherPaths, Isolated (Plan.asked root mode suffix output scale) files others paths
      otherPaths summary otherSummary := by
  have hNormal := Plan.normal_asked root mode suffix output scale
  generalize Plan.asked root mode suffix output scale = plan at *
  obtain ⟨paths, hFaithful⟩ := faithful_of_run hNormal hPlain hVacant hRun
  obtain ⟨otherPaths, hOtherFaithful⟩ := faithful_of_run hNormal hOthers hOthersVacant hOtherRun
  refine ⟨paths, otherPaths, hFaithful.discovered, hOtherFaithful.discovered, hFaithful.map_told,
    hOtherFaithful.map_told, ⟨Discovery.nodup_sources hPlain hFaithful.discovered,
      Discovery.nodup_sources hOthers hOtherFaithful.discovered⟩, ?_⟩
  intro index otherIndex path record otherRecord hPath hOtherPath hRead hRecord hOtherRecord
  have hAlone := alone_alike hTable hRenderer hNormal hPlain hOthers hHere hVacant hOthersVacant hRun
    hOtherRun hFaithful.discovered hOtherFaithful.discovered (List.mem_of_getElem? hPath)
    (List.mem_of_getElem? hOtherPath) hRead
  constructor
  · rw [Record.eq_but_image (hFaithful.records index path record hPath hRecord),
      Record.eq_but_image (hOtherFaithful.records otherIndex path otherRecord hOtherPath
        hOtherRecord), hAlone]
    exact ⟨rfl, rfl, rfl, rfl, rfl⟩
  · intro hImages
    -- one of the two images has been taken, since alone the source has the same one in both
    by_cases hKept : record.imagePath = (alone setting plan files path).imagePath
    · have hTaken : otherRecord.imagePath ≠ (alone other plan others path).imagePath := by
        rw [hAlone]
        exact fun hSame => hImages (hSame.trans hKept.symm)
      obtain ⟨namesake, hMem, hNamesake⟩ :=
        hOtherFaithful.exists_namesake hOthers hNormal.root hOtherPath hOtherRecord hTaken
      exact ⟨namesake, Or.inr hMem, hNamesake⟩
    · obtain ⟨namesake, hMem, hNamesake⟩ :=
        hFaithful.exists_namesake hPlain hNormal.root hPath hRecord hKept
      exact ⟨namesake, Or.inl hMem, hNamesake⟩

/-- A tree that shares one of its sources with `twins`. The other one is not a text. -/
def stranger : FileSystem :=
  ⟨.directory [("repo", .directory [
    ("b", .directory [("x.py", .file [])]), ("c.py", .file [0xff])])], []⟩

theorem plain_stranger : stranger.root.Plain := by
  have hSource : (Entry.directory [("x.py", .file [])]).Plain :=
    Entry.plain_directory (by decide) (by decide) (by simpa using Entry.plain_file [])
  refine Entry.plain_directory (by decide) (by decide) ?_
  intro repo hRepo
  obtain rfl := List.mem_singleton.mp hRepo
  exact Entry.plain_directory (by decide) (by decide)
    (by simpa using ⟨hSource, Entry.plain_file [0xff]⟩)

theorem sources_isolated_of_twins :
    ∃ summary otherSummary paths otherPaths,
      Isolated (Plan.asked "repo" .images ".py" (some "out") (.real Image.defaultScale)) twins
        stranger paths otherPaths summary otherSummary
      ∧ stranger.read (.ofString "repo/b/x.py") = twins.read (.ofString "repo/b/x.py") := by
  have hOk : ∀ files ∈ [twins, stranger], (run mirror
      (Plan.asked "repo" .images ".py" (some "out") (.real Image.defaultScale))
      files).result.toBool = true := by decide +kernel
  obtain ⟨summary, hRun⟩ := exists_ok_of_toBool (hOk twins (by simp))
  obtain ⟨otherSummary, hOtherRun⟩ := exists_ok_of_toBool (hOk stranger (by simp))
  obtain ⟨paths, otherPaths, hIsolated⟩ := sources_isolated rfl rfl "repo" .images ".py"
    (some "out") (.real Image.defaultScale) plain_twins plain_stranger rfl
    (fun directory hPlan => by cases hPlan; exact Or.inl rfl)
    (fun directory hPlan => by cases hPlan; exact Or.inl rfl) hRun hOtherRun
  exact ⟨summary, otherSummary, paths, otherPaths, hIsolated, by decide +kernel⟩

end Survey

end SyntaxSurvey
