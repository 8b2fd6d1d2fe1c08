import SyntaxSurvey.Proofs.Discovery
import SyntaxSurvey.Proofs.FileSystem.Making
import SyntaxSurvey.Proofs.FileSystem.Steady
import SyntaxSurvey.Proofs.Survey.Turn

/-! The record of a source is the one that the source has alone. In a survey that draws images a turn
only writes a file into the directory for images, which changes neither what is read of another
source nor whether its tree can be drawn; all that a later turn can take is the image. -/

namespace SyntaxSurvey.Survey

open FileSystem (Entry IsName Location Steady)

section Alone

variable (setting : Setting) (plan : Plan) (directory : Path) (files : FileSystem) (path : Path)

def reading : Reading :=
  Reading.ofFile setting.table files path (setting.parsing path)

def imageOf : Path :=
  directory.child (Image.nameFor path plan.suffix)

/-- Why the tree of a source cannot be drawn, if it has one and it cannot. -/
def trouble? : Option Trouble :=
  (reading setting files path).tree.bind fun tree =>
    Image.trouble? setting.renderer files tree (imageOf plan directory path) plan.scale

/-- The path of the image of a source, if it has a tree that can be drawn. -/
def image? : Option Path :=
  if (trouble? setting plan directory files path).isSome then none
  else (reading setting files path).tree.map fun _ => imageOf plan directory path

/-- The record of a source whose tree is to be drawn. -/
def drawn : Record :=
  { (trouble? setting plan directory files path).elim (reading setting files path).record
      (reading setting files path).record.stoppedBy with
    imagePath := (image? setting plan directory files path).map Path.text }

end Alone

variable {setting : Setting} {plan : Plan} {directory : Path}

/-- A turn that saves an image comes to the record of the source by itself, with the files as they
are then. -/
theorem saving_eq (s : Survey) {path : Path} (hPath : path.Normal) :
    (s.saving setting plan directory path).path = image? setting plan directory s.files path
      ∧ (s.saving setting plan directory path).record
        = drawn setting plan directory s.files path := by
  have hAbout := Reading.ofFile_about setting.table s.files path (setting.parsing path)
  have hSave := Image.save_eq setting.renderer s.files (reading setting s.files path).tree directory
    plan.suffix plan.scale (setting.drawing path) hAbout.imagePath
  rw [hAbout.filepath, Path.ofString_text hPath] at hSave
  exact hSave

/-- A source has no image or the one with its name. -/
theorem image?_cases (files : FileSystem) (path : Path) :
    image? setting plan directory files path = none
      ∨ image? setting plan directory files path = some (imageOf plan directory path) := by
  rw [image?]
  split
  · exact Or.inl rfl
  · cases (reading setting files path).tree with
    | none => exact Or.inl rfl
    | some tree => exact Or.inr rfl

theorem name_imageOf (path : Path) :
    (imageOf plan directory path).name = Image.nameFor path plan.suffix := by
  simp [imageOf, Path.name, Path.child]

/-- Whether a tree can be drawn depends on the tree, on the renderer and on whether a directory
stands where the image is to be. -/
theorem trouble?_congr {other : Setting} {files others : FileSystem} {path : Path}
    {place otherPlace : Location} {entries otherEntries : List (String × Entry)}
    (hRenderer : other.renderer = setting.renderer)
    (hTree : (reading other others path).tree = (reading setting files path).tree)
    (hPlain : files.root.Plain) (hOthers : others.root.Plain) (hDirectory : directory.Normal)
    (hName : IsName (Image.nameFor path plan.suffix))
    (hFind : files.find directory = .ok (.present place (.directory entries)))
    (hOthersFind : others.find directory = .ok (.present otherPlace (.directory otherEntries)))
    (hTaken : files.root.kind? (place ++ [Image.nameFor path plan.suffix]) = some .directory
      ↔ others.root.kind? (otherPlace ++ [Image.nameFor path plan.suffix]) = some .directory) :
    trouble? other plan directory others path = trouble? setting plan directory files path := by
  have hWrite (image : List UInt8) :
      (others.write (imageOf plan directory path) image).map (fun _ => ())
        = (files.write (imageOf plan directory path) image).map (fun _ => ()) :=
    FileSystem.write_child_congr hOthers hPlain hDirectory hName image hOthersFind hFind hTaken.symm
  rw [trouble?, trouble?, hTree, hRenderer]
  congr 1
  funext tree
  exact Image.trouble?_congr hWrite

/-- A directory for images that stands at a place. -/
structure Site (plan : Plan) (directory : Path) (place : Location) (made : FileSystem) : Prop where
  plan : plan.imageDirectory? = some directory
  normal : directory.Normal
  plain : made.root.Plain
  found : ∃ entries, made.find directory = .ok (.present place (.directory entries))

/-- A source that is not directly in the directory for images. -/
structure Clear (plan : Plan) (place : Location) (made : FileSystem) (path : Path) : Prop
    extends Discovery.IsSource made plan.suffix path where
  apart : ∀ goal entry, made.find path = .ok (.present goal entry) →
    ∀ name, goal ≠ place ++ [name]

/-- A later source has an image of the same name. -/
def Overtaken (suffix : String) (paths : List Path) (index : Nat) (path : Path) : Prop :=
  ∃ (later : Nat) (other : Path), index < later ∧ paths[later]? = some other
    ∧ Image.nameFor other suffix = Image.nameFor path suffix

/-- A survey after the turns of some sources. Each record is that of the source by itself, without
its image if a later source had one of the same name. -/
structure Settled (setting : Setting) (plan : Plan) (directory : Path) (place : Location)
    (made : FileSystem) (paths : List Path) (s : Survey) : Prop where
  steady : Steady place made s.files
  length : s.summary.records.length = paths.length
  owners : ∀ name index, s.owners.lookup name = some index →
    ∃ path, paths[index]? = some path ∧ Image.nameFor path plan.suffix = name
  records : ∀ (index : Nat) path record, paths[index]? = some path →
    s.summary.records[index]? = some record →
      record = drawn setting plan directory made path
        ∨ record = { drawn setting plan directory made path with imagePath := none }
          ∧ Overtaken plan.suffix paths index path

section Turns

variable {place : Location} {made : FileSystem} {paths : List Path} {s : Survey} {path : Path}

/-- An image that was overtaken stays so. -/
theorem Overtaken.concat {suffix : String} {index : Nat} (h : Overtaken suffix paths index path)
    (last : Path) : Overtaken suffix (paths ++ [last]) index path := by
  obtain ⟨later, other, hLater, hOther, hName⟩ := h
  exact ⟨later, other, hLater, getElem?_concat_eq_some.mpr (Or.inl hOther), hName⟩

/-- Before the first turn all is settled. -/
theorem Site.settled (hSite : Site plan directory place made) (log : Log) :
    Settled setting plan directory place made [] (begin log made) where
  steady := .refl hSite.plain
  length := rfl
  owners := by simp [begin]
  records := by simp

namespace Settled

variable (hSite : Site plan directory place made)
  (h : Settled setting plan directory place made paths s) (hClear : Clear plan place made path)

include hSite h hClear

/-- Whatever has been drawn before, the same is read of a source. -/
theorem reading_eq : reading setting s.files path = reading setting made path := by
  obtain ⟨goal, content, hFind⟩ := hClear.isFile
  exact Reading.ofFile_congr setting.table made path (setting.parsing path)
    (h.steady.read_eq hSite.plain hClear.normal hFind (hClear.apart goal _ hFind))

/-- Whatever has been drawn before, the same goes wrong with a source. -/
theorem trouble?_eq :
    trouble? setting plan directory s.files path = trouble? setting plan directory made path := by
  obtain ⟨entries, hFind⟩ := hSite.found
  obtain ⟨inner, hNow⟩ := h.steady.find_directory hSite.plain hSite.normal hFind
  exact trouble?_congr rfl (by rw [h.reading_eq hSite hClear]) hSite.plain h.steady.plain
    hSite.normal (Image.isName_nameFor hClear.isName hClear.hasSuffix) hFind hNow
    (h.steady.directories _).symm

/-- A turn saves what it would save alone. -/
theorem saving_eq :
    (s.saving setting plan directory path).path = image? setting plan directory made path
      ∧ (s.saving setting plan directory path).record
        = drawn setting plan directory made path := by
  have hReading := h.reading_eq hSite hClear
  have hTrouble := h.trouble?_eq hSite hClear
  obtain ⟨hPath, hRecord⟩ := Survey.saving_eq s hClear.normal
  constructor
  · rw [hPath, image?, image?, hReading, hTrouble]
  · rw [hRecord, drawn, drawn, image?, image?, hReading, hTrouble]

/-- A turn takes no name for an image but that of its source. -/
theorem turn_image_eq :
    (s.turn setting plan directory path).image = none
      ∨ (s.turn setting plan directory path).image = some (Image.nameFor path plan.suffix) := by
  rw [turn_image, (h.saving_eq hSite hClear).1]
  rcases image?_cases made path with hNone | hSome
  · exact Or.inl (by rw [hNone]; rfl)
  · exact Or.inr (by rw [hSome, Option.map_some, name_imageOf])

/-- A turn changes files of the directory for images only. -/
theorem steady_saving : Steady place made (s.saving setting plan directory path).files := by
  obtain ⟨entries, hFind⟩ := hSite.found
  obtain ⟨-, hFiles, -⟩ | ⟨tree, image, -, -, -, -, hWrite⟩ := saving_outcome s hClear.normal
  · rw [hFiles]
    exact h.steady
  · exact h.steady.write hSite.plain hSite.normal hFind
      (Image.isName_nameFor hClear.isName hClear.hasSuffix) hWrite

/-- After a turn, images are still owned by sources of their name. -/
theorem step_owners {name : String} {index : Nat}
    (hOwner : (s.visit setting plan path).owners.lookup name = some index) :
    ∃ source, (paths ++ [path])[index]? = some source
      ∧ Image.nameFor source plan.suffix = name := by
  rw [visit_owners hSite.plan] at hOwner
  split at hOwner
  · rename_i hImage
    refine ⟨path, getElem?_concat_eq_some.mpr (Or.inr ⟨?_, rfl⟩), ?_⟩
    · rw [← h.length]
      exact (Option.some.inj hOwner).symm
    · rcases h.turn_image_eq hSite hClear with hNone | hSome
      · rw [hNone] at hImage
        cases hImage
      · exact Option.some.inj (hSome.symm.trans hImage)
  · obtain ⟨source, hSource, hName⟩ := h.owners name index hOwner
    exact ⟨source, getElem?_concat_eq_some.mpr (Or.inl hSource), hName⟩

/-- A turn that takes the image of a source has an image of the same name. -/
theorem overtaken_of_loser {index : Nat} {source : Path} (hSource : paths[index]? = some source)
    (hLoser : s.loser? (s.turn setting plan directory path) = some index) :
    Overtaken plan.suffix (paths ++ [path]) index source := by
  obtain ⟨name, hImage, hOwner⟩ := Option.bind_eq_some_iff.mp hLoser
  obtain ⟨owner, hSame, hName⟩ := h.owners name index hOwner
  obtain rfl : owner = source := by simpa [hSource] using hSame.symm
  refine ⟨paths.length, path, (List.getElem?_eq_some_iff.mp hSource).1, by simp, ?_⟩
  rcases h.turn_image_eq hSite hClear with hNone | hSome
  · rw [hNone] at hImage
    cases hImage
  · rw [hName]
    exact Option.some.inj (hSome.symm.trans hImage)

/-- After a turn, records still are what they would be alone, but for images that they may have
lost. -/
theorem step_records {index : Nat} {source : Path} {record : Record}
    (hSource : (paths ++ [path])[index]? = some source)
    (hRecord : (s.visit setting plan path).summary.records[index]? = some record) :
    record = drawn setting plan directory made source
      ∨ record = { drawn setting plan directory made source with imagePath := none }
        ∧ Overtaken plan.suffix (paths ++ [path]) index source := by
  rcases (getElem?_visit_records hSite.plan).mp hRecord with ⟨old, hOld, rfl⟩ | ⟨rfl, rfl⟩
  · have hLt : index < paths.length := by
      rw [← h.length]
      exact (List.getElem?_eq_some_iff.mp hOld).1
    rw [List.getElem?_append_left hLt] at hSource
    have hBefore := h.records index source old hSource hOld
    split
    · rename_i hLoser
      refine Or.inr ⟨?_, h.overtaken_of_loser hSite hClear hSource hLoser⟩
      rcases hBefore with rfl | ⟨rfl, -⟩ <;> rfl
    · exact hBefore.imp_right fun ⟨hNone, hLater⟩ => ⟨hNone, hLater.concat path⟩
  · rw [h.length] at hSource
    obtain rfl : path = source := by simpa using hSource
    exact Or.inl (h.saving_eq hSite hClear).2

/-- A turn keeps all settled. -/
theorem step : Settled setting plan directory place made (paths ++ [path])
    (s.visit setting plan path) where
  steady := by
    rw [visit_files hSite.plan]
    exact h.steady_saving hSite hClear
  length := by
    rw [length_visit_records hSite.plan, h.length, List.length_append, List.length_singleton]
  owners name index := h.step_owners hSite hClear
  records index source record := h.step_records hSite hClear

omit hClear in
/-- After the turns of further sources, their records have been added. -/
theorem run {more : List Path} (hClear : ∀ path ∈ more, Clear plan place made path) :
    Settled setting plan directory place made (paths ++ more) (s.visitAll setting plan more) := by
  induction more generalizing paths s with
  | nil => simpa [visitAll] using h
  | cons path more ih =>
      have hStep := h.step hSite (hClear path (by simp))
      have hRest := ih hStep fun other hOther => hClear other (List.mem_cons_of_mem path hOther)
      simpa [visitAll] using hRest

end Settled

/-- After the turns of some sources from the beginning, their records are there. -/
theorem Site.settled_run (setting : Setting) (hSite : Site plan directory place made) (log : Log)
    (hClear : ∀ path ∈ paths, Clear plan place made path) :
    Settled setting plan directory place made paths
      ((begin log made).visitAll setting plan paths) := by
  simpa using (hSite.settled log).run hSite hClear

end Turns

/-- A source that was a file before a directory for images was made, and not directly in it, is clear
of it. -/
theorem clear_of_isSource {files made : FileSystem} {place : Location} {path : Path}
    (hPlain : files.root.Plain) (hMade : FileSystem.Made files directory made)
    (hSource : Discovery.IsSource files plan.suffix path)
    (hApart : ∀ goal content, files.find path = .ok (.present goal (.file content)) →
      ∀ name, goal ≠ place ++ [name]) : Clear plan place made path := by
  obtain ⟨goal, content, hFind⟩ := hSource.isFile
  obtain ⟨found, hFound, hKind⟩ :=
    FileSystem.find_keep hPlain hMade.plain hMade.here hMade.kept hSource.normal hFind
  obtain rfl : found = .file content := by
    cases found with
    | file bytes =>
        cases hKind
        rfl
    | link target => cases hKind
    | directory entries => cases hKind
  refine ⟨⟨hSource.normal, hSource.isName, ⟨goal, content, hFound⟩, hSource.hasSuffix⟩, ?_⟩
  intro other entry hOther
  rw [hFound] at hOther
  cases hOther
  exact hApart goal content hFind

section Parsing

variable (setting) (hPlan : plan.imageDirectory? = none)

include hPlan

theorem visit_of_no_directory (s : Survey) (path : Path) :
    (s.visit setting plan path).files = s.files
      ∧ (s.visit setting plan path).summary.records
        = s.summary.records ++ [(reading setting s.files path).record] := by
  rw [visit]
  simp only [hPlan]
  exact ⟨rfl, rfl⟩

/-- Without a directory for images, a survey reads its sources and changes no file. -/
theorem visitAll_of_no_directory (s : Survey) (paths : List Path) :
    (s.visitAll setting plan paths).files = s.files
      ∧ (s.visitAll setting plan paths).summary.records
        = s.summary.records ++ paths.map fun path => (reading setting s.files path).record := by
  induction paths generalizing s with
  | nil => simp [visitAll]
  | cons path paths ih =>
      obtain ⟨hFiles, hRecords⟩ := visit_of_no_directory setting hPlan s path
      obtain ⟨hRestFiles, hRestRecords⟩ := ih (s.visit setting plan path)
      have hCons : s.visitAll setting plan (path :: paths)
          = (s.visit setting plan path).visitAll setting plan paths := rfl
      rw [hCons]
      refine ⟨hRestFiles.trans hFiles, ?_⟩
      rw [hRestRecords, hRecords, hFiles]
      simp

/-- A survey that draws nothing records what is read of each source, and changes no files. -/
theorem run_of_no_directory {files : FileSystem} {paths : List Path}
    (hSources : Discovery.sources files plan.root plan.suffix = .ok paths) :
    ∃ summary, (run setting plan files).result = .ok summary
      ∧ summary.records = (paths.map fun path => (reading setting files path).record)
      ∧ (run setting plan files).files = files := by
  rw [run, hSources]
  simp only [hPlan]
  obtain ⟨hFiles, hRecords⟩ := visitAll_of_no_directory setting hPlan
    (begin [.enumerated paths.length plan.root, .found paths.length plan.suffix plan.root] files)
    paths
  exact ⟨_, rfl, hRecords, hFiles⟩

end Parsing

end SyntaxSurvey.Survey
