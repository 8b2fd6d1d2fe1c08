import SyntaxSurvey.Proofs.Survey.Opening

/-! Drawing images refines parsing. A survey that draws comes to what a survey that only parses comes
to, but for the troubles of drawing. Below the directory for images it writes files, and elsewhere it
makes the missing directories on the way there. -/

namespace SyntaxSurvey

open FileSystem (Entry Location)
open Number (Quantity)

/-- A record of a survey that draws next to one of a survey that parses, when the drawing has come to
a trouble or to none. -/
structure Record.Refines (trouble : Option Trouble) (record parsed : Record) : Prop where
  filename : record.filename = parsed.filename
  filepath : record.filepath = parsed.filepath
  diagnostics : record.diagnostics = parsed.diagnostics
  succeeded : record.succeeded = true ↔ parsed.succeeded = true ∧ trouble = none
  error : record.error = match trouble with
    | none => parsed.error
    | some trouble => some trouble.line

namespace FileSystem

theorem lexicalPlace_append (place : Location) (names others : List String) :
    lexicalPlace place (names ++ others) = lexicalPlace (lexicalPlace place names) others :=
  List.foldl_append

/-- A later file system, in which nothing has changed outside of a directory but that some
directories have been made on the way there. Of a path that never goes up, these lie above its
end. -/
structure Confined (files : FileSystem) (directory : Path) (later : FileSystem) : Prop where
  here : later.here = files.here
  made : later.root.kind? (files.absolute directory).parts = some .directory
  outside : ∀ place, ¬(files.absolute directory).parts <+: place →
    later.root.kind? place ≠ files.root.kind? place →
      files.root.kind? place = none ∧ later.root.kind? place = some .directory
      ∧ (∃ depth ≤ directory.parts.length,
          place = (files.absolute ⟨directory.anchor, directory.parts.take depth⟩).parts)
      ∧ (".." ∉ directory.parts → place <+: (files.absolute directory).parts)

/-- What the first names of a path that never goes up lead to lies above its end. -/
theorem absolute_take_prefix {files : FileSystem} {path : Path} (hWay : ".." ∉ path.parts)
    (depth : Nat) :
    (files.absolute ⟨path.anchor, path.parts.take depth⟩).parts <+: (files.absolute path).parts := by
  have hTake : ".." ∉ path.parts.take depth := fun hMem => hWay (List.mem_of_mem_take hMem)
  have hStart : files.start ⟨path.anchor, path.parts.take depth⟩ = files.start path := rfl
  simp only [absolute, hStart, lexicalPlace_of_no_parent hWay, lexicalPlace_of_no_parent hTake]
  exact (List.prefix_append_right_inj _).mpr (List.take_prefix depth path.parts)

/-- A directory that was made, and into which files were written. -/
theorem Made.confined {files made later : FileSystem} {directory : Path} (h : Made files directory made)
    (hSteady : Steady (files.absolute directory).parts made later)
    (hKind : made.root.kind? (files.absolute directory).parts = some .directory) :
    Confined files directory later where
  here := hSteady.here.trans h.here
  made := (hSteady.directories _).mpr hKind
  outside place hPlace hChanged := by
    have hApart : later.root.kind? place = made.root.kind? place := by
      refine hSteady.apart place fun name hName => hPlace ⟨[name], hName.symm⟩
    rw [hApart] at hChanged ⊢
    cases hBefore : files.root.kind? place with
    | some kind => exact absurd (by rw [h.kept place kind hBefore, hBefore]) hChanged
    | none =>
        rcases h.added place hBefore with hNone | ⟨hDirectory, depth, hDepth, rfl⟩
        · exact absurd (by rw [hNone, hBefore]) hChanged
        · exact ⟨rfl, hDirectory, ⟨depth, hDepth, rfl⟩, fun hWay => absolute_take_prefix hWay depth⟩

end FileSystem

namespace Survey

variable {setting other : Setting} {plan : Plan} {directory : Path} {files made : FileSystem}
  {summary parsed : Summary} {paths : List Path} {path : Path}

/-- The trouble that the drawing of a source comes to when it is its turn. -/
def raised? (setting : Setting) (plan : Plan) (directory : Path) (files : FileSystem)
    (paths : List Path) (index : Nat) : Option Trouble :=
  let before := (opening plan directory files paths).visitAll setting plan (paths.take index)
  paths[index]?.bind fun path => trouble? setting plan directory before.files path

/-- How a survey that draws and a survey that parses tell of the same sources. -/
structure Refines (setting : Setting) (plan : Plan) (directory : Path) (files : FileSystem)
    (paths : List Path) (summary parsed : Summary) : Prop where
  discovered : Discovery.sources files plan.root plan.suffix = .ok paths
  length : summary.records.length = paths.length ∧ parsed.records.length = paths.length
  records : ∀ (index : Nat) record other, summary.records[index]? = some record →
    parsed.records[index]? = some other →
      record.Refines (raised? setting plan directory files paths index) other

/-- What is drawn refines what is read, whatever comes of the image. -/
theorem drawn_refines (setting : Setting) (plan : Plan) (directory : Path) (files : FileSystem)
    (path : Path) (image : Option String) (time : Quantity) :
    Record.Refines (trouble? setting plan directory files path)
      { drawn setting plan directory files path with imagePath := image }
      { (reading setting files path).record with parseTime := time } := by
  rw [drawn]
  cases trouble? setting plan directory files path with
  | none => exact ⟨rfl, rfl, rfl, by simp [Record.succeeded], rfl⟩
  | some trouble =>
      refine ⟨rfl, rfl, rfl, ?_, rfl⟩
      simp [Record.succeeded, Record.stoppedBy, Record.failure, Record.success]

namespace Opened

variable (h : Opened plan directory files paths made)
  (hOutside : ¬(files.absolute plan.root).parts <+: (files.absolute directory).parts)

include h hOutside

/-- A source below a root does not stand in a directory that is not below the root. -/
theorem clear_of_outside (hPath : path ∈ paths) :
    Clear plan (files.absolute directory).parts made path := by
  obtain ⟨hMade, -⟩ := h.made_site
  have hSource := h.isSource hPath
  refine clear_of_isSource h.plain hMade hSource fun goal content hFind name hGoal => hOutside ?_
  obtain ⟨names, rfl, hSome, hNames⟩ := Discovery.below_of_mem h.plain h.sources hPath
  have hLeads := ((FileSystem.findFor_eq_present_iff h.plain hSource.normal).mp hFind).2
  have hPlace : goal = (files.absolute plan.root).parts ++ names := by
    have hWay : ".." ∉ names := fun hMem => (hNames ".." hMem).notParent rfl
    rw [hLeads.goal_eq, Path.below, FileSystem.lexicalPlace_append,
      FileSystem.lexicalPlace_of_no_parent hWay]
    rfl
  obtain ⟨init, last, rfl⟩ := (List.eq_nil_or_concat names).resolve_left hSome
  rw [hPlace, List.concat_eq_append, ← List.append_assoc] at hGoal
  exact ⟨init, (List.append_inj' hGoal rfl).1⟩

/-- What goes wrong with the drawing of a source does not depend on its turn. -/
theorem raised?_eq (setting : Setting) {index : Nat} (hPath : paths[index]? = some path) :
    raised? setting plan directory files paths index
      = trouble? setting plan directory made path := by
  obtain ⟨-, hSite⟩ := h.made_site
  have hSettled := h.settled setting index fun path => h.clear_of_outside hOutside
  have hClear := h.clear_of_outside hOutside (List.mem_of_getElem? hPath)
  rw [raised?, hPath]
  exact hSettled.trouble?_eq hSite hClear

/-- Each record is refined by the turn of its source. -/
theorem refines (hTable : other.table = setting.table)
    (hRecords : parsed.records = paths.map fun path => (reading other files path).record) :
    Refines setting plan directory files paths
      ((opening plan directory files paths).visitAll setting plan paths).summary parsed := by
  have hSettled := h.settled_all setting fun path => h.clear_of_outside hOutside
  refine ⟨h.sources, ⟨hSettled.length, by rw [hRecords, List.length_map]⟩, ?_⟩
  intro index record parsedRecord hRecord hParsed
  rw [hRecords, List.getElem?_map] at hParsed
  obtain ⟨path, hPath, rfl⟩ := Option.map_eq_some_iff.mp hParsed
  have hRead : files.read path = made.read path := (h.read_eq (List.mem_of_getElem? hPath)).symm
  rw [h.raised?_eq hOutside setting hPath,
    Record.eq_but_image (hSettled.records index path record hPath hRecord),
    (reading_alike hTable hRead).2]
  exact drawn_refines setting plan directory made path _ _

/-- A survey for images changes nothing outside of their directory, but for those on the way to it.
-/
theorem confined (setting : Setting) : files.Confined directory
    ((opening plan directory files paths).visitAll setting plan paths).files := by
  obtain ⟨hMade, hSite⟩ := h.made_site
  obtain ⟨entries, hFind⟩ := hSite.found
  have hLeads := ((FileSystem.findFor_eq_present_iff hMade.plain hSite.normal).mp hFind).2
  have hSettled := h.settled_all setting fun path => h.clear_of_outside hOutside
  exact hMade.confined hSettled.steady (Entry.kind?_eq_directory.mpr ⟨entries, hLeads.at?⟩)

end Opened

/-- Into whatever directory outside of the root the images are drawn, and whatever goes wrong on the
way, the records are those of a survey that only parses, but for the troubles of drawing; and nothing
else changes but the directory and what leads to it. -/
theorem images_refine_parse (setting other : Setting) (hTable : other.table = setting.table)
    (root suffix : String) (output otherOutput : Option String) (scale otherScale : Quantity)
    {files : FileSystem} {directory : Path} {summary : Summary} (hPlain : files.root.Plain)
    (hPlan : (Plan.asked root .images suffix output scale).imageDirectory? = some directory)
    (hOutside : ¬(files.absolute (.ofString root)).parts <+: (files.absolute directory).parts)
    (hRun : (run setting (Plan.asked root .images suffix output scale) files).result
      = .ok summary) :
    ∃ paths parsed,
      (run other (Plan.asked root .parse suffix otherOutput otherScale) files).result = .ok parsed
      ∧ (run other (Plan.asked root .parse suffix otherOutput otherScale) files).files = files
      ∧ Refines setting (Plan.asked root .images suffix output scale) directory files paths summary
        parsed
      ∧ files.Confined directory
        (run setting (Plan.asked root .images suffix output scale) files).files := by
  have hNormal := Plan.normal_asked root .images suffix output scale
  have hParse : (Plan.asked root .parse suffix otherOutput otherScale).imageDirectory? = none := rfl
  obtain ⟨paths, made, hOpened, rfl, hFiles⟩ := exists_opened hNormal hPlain hPlan hRun
  obtain ⟨parsed, hParsed, hRecords, hSame⟩ := run_of_no_directory other hParse hOpened.sources
  rw [hFiles]
  exact ⟨paths, parsed, hParsed, hSame, hOpened.refines hOutside hTable hRecords,
    hOpened.confined hOutside setting⟩

/-- A renderer that makes an image of no graph. -/
def blind : Setting :=
  { mirror with renderer := fun _ => .error .missing }

theorem images_refine_parse_of_twins :
    ∃ summary paths parsed,
      (run blind (Plan.asked "repo" .parse ".py" none (.real Image.defaultScale)) twins).result
        = .ok parsed
      ∧ Refines blind (Plan.asked "repo" .images ".py" none (.real Image.defaultScale))
        (.ofString "repo_parse_trees") twins paths summary parsed := by
  have hOk : (run blind (Plan.asked "repo" .images ".py" none (.real Image.defaultScale))
      twins).result.toBool = true := by decide +kernel
  obtain ⟨summary, hRun⟩ := exists_ok_of_toBool hOk
  have hPlan : (Plan.asked "repo" .images ".py" none (.real Image.defaultScale)).imageDirectory?
      = some (.ofString "repo_parse_trees") := by decide +kernel
  obtain ⟨paths, parsed, hParsed, -, hRefines, -⟩ := images_refine_parse blind blind rfl "repo"
    ".py" none none (.real Image.defaultScale) (.real Image.defaultScale) plain_twins hPlan
    (by decide +kernel) hRun
  exact ⟨summary, paths, parsed, hParsed, hRefines⟩

/-- A path that goes up can leave a directory beside the one for images, which neither lies in it nor
leads to it. -/
theorem directory_left_aside :
    let files : FileSystem := ⟨.directory [("repo", .directory [("notes", .file [])])], []⟩
    let plan := Plan.asked "repo" .images ".py" (some "work/../out") (.real Image.defaultScale)
    files.root.Plain
      ∧ ¬(files.absolute (.ofString "repo")).parts
        <+: (files.absolute (.ofString "work/../out")).parts
      ∧ (run mirror plan files).result = .ok .empty
      ∧ ¬(files.absolute (.ofString "work/../out")).parts <+: ["work"]
      ∧ ¬["work"] <+: (files.absolute (.ofString "work/../out")).parts
      ∧ files.root.kind? ["work"] = none
      ∧ (run mirror plan files).files.root.kind? ["work"] ≠ none := by
  refine ⟨?_, by decide, by decide +kernel, by decide, by decide, rfl, ?_⟩
  · refine Entry.plain_directory (by decide) (by decide) ?_
    intro repo hRepo
    obtain rfl := List.mem_singleton.mp hRepo
    exact Entry.plain_directory (by decide) (by decide) (by simpa using Entry.plain_file [])
  · exact Option.isSome_iff_ne_none.mp (by decide +kernel)

end Survey

end SyntaxSurvey
