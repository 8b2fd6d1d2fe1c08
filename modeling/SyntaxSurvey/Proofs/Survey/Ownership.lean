import SyntaxSurvey.Grammar.Python
import SyntaxSurvey.Proofs.FileSystem.Descendants
import SyntaxSurvey.Proofs.FileSystem.Making
import SyntaxSurvey.Proofs.Survey.Ledger

/-! Ownership of images. When a survey that draws images has ended, the records with an image and
the files of its directory correspond to each other, each file shows the source of its record, and
what was overwritten on the way has been told of once. -/

namespace SyntaxSurvey

open FileSystem (Entry Location)
open Number (Quantity)

def Plan.drawing (root output suffix : String) (scale : Quantity) : Plan :=
  ⟨.ofString root, .images, suffix, some (.ofString output), scale⟩

namespace Survey

/-- The survey that stands at the beginning of a plan with a directory for images. -/
def opening (plan : Plan) (directory : Path) (files : FileSystem) (paths : List Path) : Survey :=
  begin [.enumerated paths.length plan.root, .found paths.length plan.suffix plan.root]
    (files.makeDirectories directory).1

/-- How the records, the directory and the log fit together when a plan has been carried out that
draws the given sources. The files are those from before, the entries those that the directory has
afterwards. -/
structure Ownership (setting : Setting) (plan : Plan) (directory : Path) (files : FileSystem)
    (summary : Summary) (paths : List Path) (turns : List Turn) (entries : List (String × Entry)) :
    Prop where
  discovered : Discovery.sources files plan.root plan.suffix = .ok paths
  turned : turns = (opening plan directory files paths).turns setting plan directory paths
  told : summary.records.map (fun record => (record.filename, record.filepath))
    = paths.map fun path => (path.name, path.text)
  /-- The entries of the directory, each with a name of its own. -/
  found : (run setting plan files).files.find directory
    = .ok (.present (files.absolute directory).parts (.directory entries))
  distinct : (entries.map Prod.fst).Nodup
  /-- No file is the image of two records, and the images are the files of the directory. -/
  single : (summary.records.filterMap Record.imagePath).Nodup
  held : (summary.records.filterMap Record.imagePath).Perm
    ((entries.filter fun entry => entry.2.isFile).map fun entry => (directory.child entry.1).text)
  /-- What is in the directory besides was made on the way to it, and there is nothing else when
  its path never goes up. -/
  leftover : ∀ entry ∈ entries, entry.2.isFile = false →
    (∃ inner, entry.2 = .directory inner) ∧ ∃ depth ≤ directory.parts.length,
      (files.absolute directory).parts ++ [entry.1]
        = (files.absolute ⟨directory.anchor, directory.parts.take depth⟩).parts
  filed : ".." ∉ directory.parts → ∀ entry ∈ entries, entry.2.isFile = true
  /-- The file of a record has its name from the source of the record, and shows its tree. -/
  shown : ∀ record ∈ summary.records, ∀ image, record.imagePath = some image →
    ∃ name bytes, name = Image.nameFor (.ofString record.filepath) plan.suffix
      ∧ image = (directory.child name).text ∧ (name, .file bytes) ∈ entries
      ∧ rendition? setting plan files (.ofString record.filepath) = some bytes
  /-- A record has lost its image exactly when a later source of the same name got one. -/
  lost : ∀ (index : Nat) record turn, summary.records[index]? = some record →
    turns[index]? = some turn → turn.image ≠ none →
      (record.imagePath = none
        ↔ ∃ (later : Nat) (other : Turn) (otherRecord : Record), index < later
          ∧ turns[later]? = some other ∧ other.image ≠ none
          ∧ summary.records[later]? = some otherRecord ∧ otherRecord.filename = record.filename)
  /-- Each loss has been told of once, and nothing else as one. -/
  warned : ∀ (index : Nat) record turn, summary.records[index]? = some record →
    turns[index]? = some turn →
      (run setting plan files).log.countP (Log.Event.overwrites record.filepath)
        = if turn.image ≠ none ∧ record.imagePath = none then 1 else 0

variable {setting : Setting} {plan : Plan} {directory : Path}

/-- A survey for images with a summary has found its sources and made its directory before it
visited them. -/
theorem run_ok (hPlan : plan.imageDirectory? = some directory) {files : FileSystem}
    {summary : Summary} (hRun : (run setting plan files).result = .ok summary) :
    ∃ paths made, Discovery.sources files plan.root plan.suffix = .ok paths
      ∧ files.makeDirectories directory = (made, none)
      ∧ summary = ((opening plan directory files paths).visitAll setting plan paths).summary
      ∧ (run setting plan files).log
        = ((opening plan directory files paths).visitAll setting plan paths).log
      ∧ (run setting plan files).files
        = ((opening plan directory files paths).visitAll setting plan paths).files := by
  rw [run] at hRun ⊢
  cases hSources : Discovery.sources files plan.root plan.suffix with
  | error trouble => simp [hSources] at hRun
  | ok paths =>
      simp only [hSources, hPlan] at hRun ⊢
      cases hMake : files.makeDirectories directory with
      | mk made trouble =>
          cases trouble with
          | some failure => simp [hMake] at hRun
          | none =>
              simp only [hMake, complete, Except.ok.injEq] at hRun
              refine ⟨paths, made, rfl, rfl, ?_, ?_, ?_⟩
              · simp only [opening, hMake, ← hRun]
              · simp only [opening, hMake, complete]
              · simp only [opening, hMake, complete]

theorem map_source_turns (s : Survey) (paths : List Path) :
    (s.turns setting plan directory paths).map Turn.source = paths := by
  induction paths generalizing s with
  | nil => rfl
  | cons path paths ih => simp [turns, turn, ih]

namespace Ledger

variable {place : Location} {initial made : FileSystem} {turns : List Turn} {s : Survey}
  (hReady : Ready plan directory place initial made)
  (h : Ledger setting plan directory place initial made turns s)

include h

/-- Every turn has its record. -/
theorem exists_record {index : Nat} {turn : Turn} (hTurn : turns[index]? = some turn) :
    ∃ record, s.summary.records[index]? = some record := by
  have hLt := lt_length_of_getElem? hTurn
  rw [← h.length] at hLt
  exact ⟨_, List.getElem?_eq_getElem hLt⟩

theorem exists_turn {index : Nat} {record : Record}
    (hRecord : s.summary.records[index]? = some record) : ∃ turn, turns[index]? = some turn := by
  have hLt := (List.getElem?_eq_some_iff.mp hRecord).1
  rw [h.length] at hLt
  exact ⟨_, List.getElem?_eq_getElem hLt⟩

/-- The records tell of the sources of the turns, in their order. -/
theorem map_told : s.summary.records.map (fun record => (record.filename, record.filepath))
    = (turns.map Turn.source).map fun path => (path.name, path.text) := by
  rw [List.map_map]
  refine List.ext_getElem? fun index => ?_
  rw [List.getElem?_map, List.getElem?_map]
  cases hTurn : turns[index]? with
  | none =>
      have hLength := List.getElem?_eq_none_iff.mp hTurn
      rw [← h.length] at hLength
      simp [List.getElem?_eq_none hLength]
  | some turn =>
      obtain ⟨record, hRecord⟩ := h.exists_record hTurn
      have hTold := h.told index turn record hTurn hRecord
      simp [hRecord, hTold]

/-- Whoever owns an image is the latest to have saved it. -/
theorem owner_iff_latest {name : String} {index : Nat} :
    s.owners.lookup name = some index ↔ Latest turns name index := by
  constructor
  · exact h.owned name index
  · rintro ⟨⟨turn, hTurn, hImage⟩, hLast⟩
    cases hOwner : s.owners.lookup name with
    | none => exact absurd hImage (h.unowned name hOwner turn (List.mem_of_getElem? hTurn))
    | some owner =>
        obtain ⟨⟨other, hOther, hOtherImage⟩, hOtherLast⟩ := h.owned name owner hOwner
        rcases Nat.lt_trichotomy index owner with hLt | rfl | hGt
        · exact absurd hOtherImage (hLast owner other hLt hOther)
        · rfl
        · exact absurd hImage (hOtherLast index turn hGt hTurn)

/-- A record whose turn saved an image is without one when another turn has overwritten it. -/
theorem imagePath_eq_none_iff {index : Nat} {turn : Turn} {record : Record} {name : String}
    (hTurn : turns[index]? = some turn) (hImage : turn.image = some name)
    (hRecord : s.summary.records[index]? = some record) :
    record.imagePath = none ↔ Lost turns index := by
  constructor
  · intro hNone
    refine Classical.byContradiction fun hKept => ?_
    have hOwner := h.owner_iff_latest.mpr ((latest_iff_not_lost hTurn hImage).mpr hKept)
    have hPath := (h.images index record _ hRecord).mpr ⟨name, hOwner, rfl⟩
    rw [hNone] at hPath
    cases hPath
  · intro hLost
    cases hPath : record.imagePath with
    | none => rfl
    | some path =>
        obtain ⟨other, hOwner, -⟩ := (h.images index record path hRecord).mp hPath
        obtain ⟨⟨same, hSame, hOther⟩, hLast⟩ := h.owned other index hOwner
        exact absurd hLost ((latest_iff_not_lost hSame hOther).mp ⟨⟨same, hSame, hOther⟩, hLast⟩)

theorem isName_of_owner {name : String} {index : Nat}
    (hOwner : s.owners.lookup name = some index) : FileSystem.IsName name := by
  obtain ⟨⟨turn, hTurn, hImage⟩, -⟩ := h.owned name index hOwner
  exact (h.named turn (List.mem_of_getElem? hTurn) name hImage).2

/-- Two sources with the ending of the plan that saved images overwrite each other exactly when they
have the same name. -/
theorem lost_iff (hSuffix : ∀ turn ∈ turns, Discovery.hasSuffix plan.suffix turn.source = true)
    {index : Nat} {turn : Turn} {record : Record} (hTurn : turns[index]? = some turn)
    (hImage : turn.image ≠ none) (hRecord : s.summary.records[index]? = some record) :
    Lost turns index
      ↔ ∃ (later : Nat) (other : Turn) (otherRecord : Record), index < later
          ∧ turns[later]? = some other ∧ other.image ≠ none
          ∧ s.summary.records[later]? = some otherRecord
          ∧ otherRecord.filename = record.filename := by
  have hMem := List.mem_of_getElem? hTurn
  have hTold := (h.told index turn record hTurn hRecord).1
  constructor
  · rintro ⟨name, later, same, other, hSame, hName, hLater, hOther, hOtherName⟩
    obtain rfl : turn = same := by simpa [hTurn] using hSame
    obtain ⟨otherRecord, hOtherRecord⟩ := h.exists_record hOther
    have hOtherMem := List.mem_of_getElem? hOther
    have hNames : Image.nameFor other.source plan.suffix = Image.nameFor turn.source plan.suffix :=
      (h.named other hOtherMem name hOtherName).1.symm.trans (h.named turn hMem name hName).1
    refine ⟨later, other, otherRecord, hLater, hOther, by simp [hOtherName], hOtherRecord, ?_⟩
    rw [hTold, (h.told later other otherRecord hOther hOtherRecord).1]
    exact (Image.nameFor_eq_iff (hSuffix other hOtherMem) (hSuffix turn hMem)).mp hNames
  · rintro ⟨later, other, otherRecord, hLater, hOther, hOtherImage, hOtherRecord, hSame⟩
    obtain ⟨name, hName⟩ := Option.ne_none_iff_exists'.mp hImage
    obtain ⟨otherName, hOtherName⟩ := Option.ne_none_iff_exists'.mp hOtherImage
    have hOtherMem := List.mem_of_getElem? hOther
    rw [hTold, (h.told later other otherRecord hOther hOtherRecord).1] at hSame
    have hNames := (Image.nameFor_eq_iff (hSuffix other hOtherMem) (hSuffix turn hMem)).mpr hSame
    rw [← (h.named other hOtherMem otherName hOtherName).1, ← (h.named turn hMem name hName).1]
      at hNames
    exact ⟨name, later, turn, other, hTurn, hName, hLater, hOther, hNames ▸ hOtherName⟩

/-- A record whose turn saved an image has been told of once if it is without one. -/
theorem countP_overwrites {index : Nat} {turn : Turn} {record : Record}
    (hTurn : turns[index]? = some turn) (hRecord : s.summary.records[index]? = some record) :
    s.log.countP (Log.Event.overwrites record.filepath)
      = if turn.image ≠ none ∧ record.imagePath = none then 1 else 0 := by
  have hTold := (h.told index turn record hTurn hRecord).2
  have hLostAs : LostAs turns record.filepath ↔ Lost turns index := by
    constructor
    · rintro ⟨other, same, hSame, hText, hLost⟩
      exact h.distinct other index same turn hSame hTurn (hText.trans hTold) ▸ hLost
    · intro hLost
      exact ⟨index, turn, hTurn, hTold.symm, hLost⟩
  have hIff : turn.image ≠ none ∧ record.imagePath = none ↔ Lost turns index := by
    cases hImage : turn.image with
    | some name => simp [h.imagePath_eq_none_iff hTurn hImage hRecord]
    | none =>
        constructor
        · simp
        · rintro ⟨name, later, same, other, hSame, hName, -⟩
          obtain rfl : turn = same := by simpa [hTurn] using hSame
          simp [hImage] at hName
  split
  · rename_i hBoth
    exact (h.warned record.filepath).1 (hLostAs.mpr (hIff.mp hBoth))
  · rename_i hNot
    exact (h.warned record.filepath).2 fun hLost => hNot (hIff.mpr (hLostAs.mp hLost))

variable {entries : List (String × Entry)}
  (hFound : s.files.root.at? place = some (.directory entries))

include hFound

/-- What the directory for images lists stands below its place. -/
theorem mem_entries_iff {name : String} {entry : Entry} :
    (name, entry) ∈ entries ↔ s.files.root.at? (place ++ [name]) = some entry := by
  rw [Entry.at?_concat, hFound, Option.bind_some, Entry.child?,
    Entry.lookup_eq_some_iff_mem (h.plain.distinct place entries hFound)]

theorem isName_of_mem {name : String} {entry : Entry} (hMem : (name, entry) ∈ entries) :
    FileSystem.IsName name :=
  h.plain.named place entries hFound name (List.mem_map.mpr ⟨(name, entry), hMem, rfl⟩)

/-- The file of a name that belongs to a record. -/
theorem mem_of_owner {name : String} {index : Nat} {turn : Turn}
    (hOwner : s.owners.lookup name = some index) (hTurn : turns[index]? = some turn) :
    ∃ image, rendition? setting plan initial turn.source = some image
      ∧ (name, .file image) ∈ entries := by
  obtain ⟨image, hRendition, hKind⟩ := h.drawn name index turn hOwner hTurn
  exact ⟨image, hRendition, (h.mem_entries_iff hFound).mpr (Entry.kind?_eq_file.mp hKind)⟩

/-- The file of a record with an image has its name from the source of the record, and shows the
source as it stood before the survey. -/
theorem shown (hNormal : ∀ turn ∈ turns, turn.source.Normal) {record : Record} {path : String}
    (hRecord : record ∈ s.summary.records) (hPath : record.imagePath = some path) :
    ∃ name bytes, name = Image.nameFor (.ofString record.filepath) plan.suffix
      ∧ path = (directory.child name).text ∧ (name, .file bytes) ∈ entries
      ∧ rendition? setting plan initial (.ofString record.filepath) = some bytes := by
  obtain ⟨index, hIndex⟩ := List.getElem?_of_mem hRecord
  obtain ⟨name, hOwner, rfl⟩ := (h.images index record path hIndex).mp hPath
  obtain ⟨⟨turn, hTurn, hName⟩, -⟩ := h.owned name index hOwner
  have hTurnMem := List.mem_of_getElem? hTurn
  obtain ⟨bytes, hRendition, hMem⟩ := h.mem_of_owner hFound hOwner hTurn
  have hSource : Path.ofString record.filepath = turn.source := by
    rw [(h.told index turn record hTurn hIndex).2]
    exact Path.ofString_text (hNormal turn hTurnMem)
  rw [hSource]
  exact ⟨name, bytes, (h.named turn hTurnMem name hName).1, rfl, hMem, hRendition⟩

/-- An entry whose name belongs to no record was there before the first turn. -/
theorem kind?_of_unowned {name : String} {entry : Entry} (hMem : (name, entry) ∈ entries)
    (hOwner : s.owners.lookup name = none) :
    made.root.kind? (place ++ [name]) = some entry.kind := by
  rw [← h.rest (place ++ [name]), Entry.kind?, (h.mem_entries_iff hFound).mp hMem]
  · rfl
  · intro other hPlace
    obtain rfl : name = other := by simpa using hPlace
    exact hOwner

include hReady

/-- The files of the directory are those whose names belong to records. -/
theorem isFile_iff_owned {name : String} {entry : Entry} (hMem : (name, entry) ∈ entries) :
    entry.isFile = true ↔ ∃ index, s.owners.lookup name = some index := by
  constructor
  · intro hFile
    cases hOwner : s.owners.lookup name with
    | some index => exact ⟨index, rfl⟩
    | none =>
        have hKind := h.kind?_of_unowned hFound hMem hOwner
        rcases hReady.fileless name with hNone | hDirectory
        · simp [hNone] at hKind
        · rw [hDirectory] at hKind
          cases entry with
          | file content => cases hKind
          | link target => cases hFile
          | directory inner => cases hFile
  · rintro ⟨index, hOwner⟩
    obtain ⟨⟨turn, hTurn, -⟩, -⟩ := h.owned name index hOwner
    obtain ⟨image, -, hImage⟩ := h.mem_of_owner hFound hOwner hTurn
    have hEntry := (h.mem_entries_iff hFound).mp hMem
    rw [(h.mem_entries_iff hFound).mp hImage] at hEntry
    cases hEntry
    rfl

omit hFound in
/-- No two records have the same image. -/
theorem nodup_images : (s.summary.records.filterMap Record.imagePath).Nodup := by
  refine List.pairwise_filterMap.mpr (List.pairwise_iff_getElem.mpr ?_)
  rintro index other hIndex hOther hLt image hImage same hSame rfl
  obtain ⟨name, hOwner, hText⟩ :=
    (h.images index _ image (List.getElem?_eq_getElem hIndex)).mp hImage
  obtain ⟨otherName, hOtherOwner, hOtherText⟩ :=
    (h.images other _ image (List.getElem?_eq_getElem hOther)).mp hSame
  obtain rfl := Path.child_text_injective hReady.normal (h.isName_of_owner hOwner).toIsPart
    (h.isName_of_owner hOtherOwner).toIsPart (hText.symm.trans hOtherText)
  rw [hOwner] at hOtherOwner
  exact absurd (Option.some.inj hOtherOwner) (Nat.ne_of_lt hLt)

theorem nodup_files :
    ((entries.filter fun entry => entry.2.isFile).map
      fun entry => (directory.child entry.1).text).Nodup := by
  have hDistinct : entries.Pairwise fun entry other => entry.1 ≠ other.1 :=
    List.pairwise_map.mp (h.plain.distinct place entries hFound)
  refine List.pairwise_map.mpr ((hDistinct.filter _).imp_of_mem ?_)
  intro entry other hEntry hOther hNames hText
  have hName := h.isName_of_mem hFound (List.mem_filter.mp hEntry).1
  have hOtherName := h.isName_of_mem hFound (List.mem_filter.mp hOther).1
  exact hNames (Path.child_text_injective hReady.normal hName.toIsPart hOtherName.toIsPart hText)

/-- The images of the records are the files of the directory. -/
theorem images_perm_files :
    (s.summary.records.filterMap Record.imagePath).Perm
      ((entries.filter fun entry => entry.2.isFile).map
        fun entry => (directory.child entry.1).text) := by
  refine (List.perm_ext_iff_of_nodup (h.nodup_images hReady)
    (h.nodup_files hReady hFound)).mpr fun image => ?_
  constructor
  · intro hImage
    obtain ⟨record, hRecord, hPath⟩ := List.mem_filterMap.mp hImage
    obtain ⟨index, hIndex⟩ := List.getElem?_of_mem hRecord
    obtain ⟨name, hOwner, rfl⟩ := (h.images index record image hIndex).mp hPath
    obtain ⟨turn, hTurn⟩ := h.exists_turn hIndex
    obtain ⟨bytes, -, hMem⟩ := h.mem_of_owner hFound hOwner hTurn
    exact List.mem_map.mpr ⟨(name, .file bytes), List.mem_filter.mpr ⟨hMem, rfl⟩, rfl⟩
  · intro hImage
    obtain ⟨⟨name, entry⟩, hEntry, rfl⟩ := List.mem_map.mp hImage
    obtain ⟨hMem, hFile⟩ := List.mem_filter.mp hEntry
    obtain ⟨index, hOwner⟩ := (h.isFile_iff_owned hReady hFound hMem).mp hFile
    obtain ⟨⟨turn, hTurn, -⟩, -⟩ := h.owned name index hOwner
    obtain ⟨record, hRecord⟩ := h.exists_record hTurn
    have hPath := (h.images index record _ hRecord).mpr ⟨name, hOwner, rfl⟩
    exact List.mem_filterMap.mpr ⟨record, List.mem_of_getElem? hRecord, hPath⟩

end Ledger

/-- A directory that has been made where there was nothing, or an empty one, is without files. -/
theorem ready_of_made {plan : Plan} {directory : Path} {files made : FileSystem}
    (hPlan : plan.imageDirectory? = some directory) (hPlain : files.root.Plain)
    (hNormal : directory.Normal)
    (hEmpty : files.root.at? (files.absolute directory).parts = none
      ∨ files.root.at? (files.absolute directory).parts = some (.directory []))
    (hMake : files.makeDirectories directory = (made, none)) :
    Ready plan directory (files.absolute directory).parts files made := by
  obtain ⟨hMade, hFound⟩ := FileSystem.makeDirectories_ok hPlain hNormal hMake
  have hFresh (name : String) :
      files.root.kind? ((files.absolute directory).parts ++ [name]) = none := by
    rw [Entry.kind?_eq_none, Entry.at?_concat]
    rcases hEmpty with hNone | hSome
    · simp [hNone]
    · simp [hSome, Entry.child?]
  refine ⟨hPlan, hNormal, hPlain, hMade.plain, hMade.here, hMade.kept, hFound, hFresh, ?_⟩
  intro name
  rcases hMade.added _ (hFresh name) with hNone | ⟨hDirectory, -⟩
  · exact Or.inl hNone
  · exact Or.inr hDirectory

/-- What is in the directory and no file was made on the way to it. -/
theorem Ledger.leftover {files made : FileSystem} {turns : List Turn} {s : Survey}
    {entries : List (String × Entry)} (hPlain : files.root.Plain) (hNormal : directory.Normal)
    (hMake : files.makeDirectories directory = (made, none))
    (hReady : Ready plan directory (files.absolute directory).parts files made)
    (h : Ledger setting plan directory (files.absolute directory).parts files made turns s)
    (hFound : s.files.root.at? (files.absolute directory).parts = some (.directory entries))
    {entry : String × Entry} (hMem : entry ∈ entries) (hFile : entry.2.isFile = false) :
    (∃ inner, entry.2 = .directory inner) ∧ ∃ depth ≤ directory.parts.length,
      (files.absolute directory).parts ++ [entry.1]
        = (files.absolute ⟨directory.anchor, directory.parts.take depth⟩).parts := by
  obtain ⟨name, entry⟩ := entry
  have hUnowned : s.owners.lookup name = none := by
    cases hOwner : s.owners.lookup name with
    | none => rfl
    | some index =>
        rw [(h.isFile_iff_owned hReady hFound hMem).mpr ⟨index, hOwner⟩] at hFile
        cases hFile
  have hKind := h.kind?_of_unowned hFound hMem hUnowned
  obtain ⟨hMade, -⟩ := FileSystem.makeDirectories_ok hPlain hNormal hMake
  rcases hMade.added _ (hReady.fresh name) with hNone | ⟨hDirectory, hWay⟩
  · simp [hNone] at hKind
  · rw [hDirectory] at hKind
    cases entry with
    | file content => cases hKind
    | link target => cases hKind
    | directory inner => exact ⟨⟨inner, rfl⟩, hWay⟩

/-- No directory is left on the way of a path that never goes up, since what its first names lead
to lies above its end. -/
theorem not_leftover {files : FileSystem} (hWay : ".." ∉ directory.parts) (name : String)
    (depth : Nat) :
    (files.absolute directory).parts ++ [name]
      ≠ (files.absolute ⟨directory.anchor, directory.parts.take depth⟩).parts := by
  have hStart : files.start ⟨directory.anchor, directory.parts.take depth⟩
      = files.start directory := rfl
  have hTake : ".." ∉ directory.parts.take depth := fun hMem => hWay (List.mem_of_mem_take hMem)
  intro hEq
  have hLength := congrArg List.length hEq
  simp only [FileSystem.absolute, hStart, FileSystem.lexicalPlace_of_no_parent hWay,
    FileSystem.lexicalPlace_of_no_parent hTake, List.length_append, List.length_take] at hLength
  simp at hLength
  omega

/-- The invariant holds after the last turn of a plan. -/
theorem Ready.ledger_opening {files made : FileSystem} {place : Location} {paths : List Path}
    (hReady : Ready plan directory place files made) (hPlain : files.root.Plain)
    (hRoot : plan.root.Normal)
    (hSources : Discovery.sources files plan.root plan.suffix = .ok paths)
    (hMake : files.makeDirectories directory = (made, none)) :
    Ledger setting plan directory place files made
      ((opening plan directory files paths).turns setting plan directory paths)
      ((opening plan directory files paths).visitAll setting plan paths) := by
  have hIsSource : ∀ path ∈ paths, Discovery.IsSource files plan.suffix path := fun path hPath =>
    Discovery.isSource_of_mem hPlain hRoot hSources hPath
  have hTexts : (paths.map Path.text).Nodup :=
    List.Nodup.map_on (fun path hPath other hOther hText =>
      Path.text_injective (hIsSource path hPath).normal (hIsSource other hOther).normal hText)
      (Discovery.nodup_sources hPlain hSources)
  have hOpening : opening plan directory files paths
      = begin [.enumerated paths.length plan.root, .found paths.length plan.suffix plan.root]
        made := by
    rw [opening, hMake]
  have hQuiet : Log.Quiet [.enumerated paths.length plan.root,
      .found paths.length plan.suffix plan.root] :=
    .cons (fun _ => rfl) (.cons (fun _ => rfl) Log.quiet_nil)
  have hBegin : Ledger setting plan directory place files made []
      (opening plan directory files paths) := hOpening ▸ hReady.ledger hQuiet
  exact hBegin.run hReady hIsSource (by simpa using hTexts)

/-- The invariant after the last turn tells how records, directory and log fit together. -/
theorem Ledger.ownership {files made : FileSystem} {paths : List Path} {turns : List Turn}
    {s : Survey} (hPlain : files.root.Plain) (hNormal : directory.Normal)
    (hRoot : plan.root.Normal)
    (hSources : Discovery.sources files plan.root plan.suffix = .ok paths)
    (hMake : files.makeDirectories directory = (made, none))
    (hReady : Ready plan directory (files.absolute directory).parts files made)
    (h : Ledger setting plan directory (files.absolute directory).parts files made turns s)
    (hTurns : turns = (opening plan directory files paths).turns setting plan directory paths)
    (hLog : (Survey.run setting plan files).log = s.log)
    (hFiles : (Survey.run setting plan files).files = s.files) :
    ∃ entries, Ownership setting plan directory files s.summary paths turns entries := by
  have hPaths : turns.map Turn.source = paths := by
    rw [hTurns]
    exact map_source_turns _ paths
  have hIsSource : ∀ turn ∈ turns, Discovery.IsSource files plan.suffix turn.source := by
    intro turn hTurn
    have hMem : turn.source ∈ paths := by
      rw [← hPaths]
      exact List.mem_map_of_mem hTurn
    exact Discovery.isSource_of_mem hPlain hRoot hSources hMem
  obtain ⟨old, hOld⟩ := hReady.found
  obtain ⟨now, hNow, hKind⟩ :=
    FileSystem.find_keep hReady.plain h.plain h.here h.kept hNormal hOld
  obtain ⟨entries, rfl⟩ : ∃ entries, now = .directory entries := by
    cases now with
    | file content => cases hKind
    | link target => cases hKind
    | directory entries => exact ⟨entries, rfl⟩
  have hFound : s.files.root.at? (files.absolute directory).parts = some (.directory entries) :=
    ((FileSystem.findFor_eq_present_iff h.plain hNormal).mp hNow).2.at?
  have hLeftover {entry : String × Entry} (hMem : entry ∈ entries)
      (hFile : entry.2.isFile = false) :=
    h.leftover hPlain hNormal hMake hReady hFound hMem hFile
  refine ⟨entries, {
    discovered := hSources
    turned := hTurns
    told := by rw [h.map_told, hPaths]
    found := by rw [hFiles, hNow]
    distinct := h.plain.distinct _ entries hFound
    single := h.nodup_images hReady
    held := h.images_perm_files hReady hFound
    leftover := fun entry hMem hFile => hLeftover hMem hFile
    filed := ?_
    shown := fun record hRecord path hPath =>
      h.shown hFound (fun turn hTurn => (hIsSource turn hTurn).normal) hRecord hPath
    lost := ?_
    warned := ?_ }⟩
  · intro hWay entry hMem
    cases hFile : entry.2.isFile with
    | true => rfl
    | false =>
        obtain ⟨-, depth, -, hPlace⟩ := hLeftover hMem hFile
        exact absurd hPlace (not_leftover hWay entry.1 depth)
  · intro index record turn hRecord hTurn hImage
    obtain ⟨name, hName⟩ := Option.ne_none_iff_exists'.mp hImage
    rw [h.imagePath_eq_none_iff hTurn hName hRecord]
    exact h.lost_iff (fun turn hMem => (hIsSource turn hMem).hasSuffix) hTurn hImage hRecord
  · intro index record turn hRecord hTurn
    rw [hLog]
    exact h.countP_overwrites hTurn hRecord

/-- Whatever the renderer does with each tree, a survey with a directory for images that was absent
or empty ends with every image in the hands of the last source that drew it. -/
theorem images_owned (setting : Setting) (root output suffix : String) (scale : Quantity)
    {files : FileSystem} {summary : Summary} (hPlain : files.root.Plain)
    (hEmpty : files.root.at? (files.absolute (.ofString output)).parts = none
      ∨ files.root.at? (files.absolute (.ofString output)).parts = some (.directory []))
    (hRun : (run setting (Plan.drawing root output suffix scale) files).result = .ok summary) :
    ∃ paths turns entries, Ownership setting (Plan.drawing root output suffix scale)
      (.ofString output) files summary paths turns entries := by
  have hPlan : (Plan.drawing root output suffix scale).imageDirectory? = some (.ofString output) :=
    rfl
  have hNormal := Path.normal_ofString output
  have hRoot : (Plan.drawing root output suffix scale).root.Normal := Path.normal_ofString root
  obtain ⟨paths, made, hSources, hMake, rfl, hLog, hFiles⟩ := run_ok hPlan hRun
  have hReady := ready_of_made hPlan hPlain hNormal hEmpty hMake
  have hLedger : Ledger setting _ _ _ _ _ _ _ :=
    hReady.ledger_opening hPlain hRoot hSources hMake
  obtain ⟨entries, hOwnership⟩ :=
    hLedger.ownership hPlain hNormal hRoot hSources hMake hReady rfl hLog hFiles
  exact ⟨paths, _, entries, hOwnership⟩

/-- A tree that holds two sources of the same name. -/
def twins : FileSystem :=
  ⟨.directory [("repo", .directory [
    ("a", .directory [("x.py", .file [])]), ("b", .directory [("x.py", .file [])])])], []⟩

theorem plain_twins : twins.root.Plain := by
  have hSource : (Entry.directory [("x.py", .file [])]).Plain :=
    Entry.plain_directory (by decide) (by decide) (by simpa using Entry.plain_file [])
  refine Entry.plain_directory (by decide) (by decide) ?_
  intro repo hRepo
  obtain rfl := List.mem_singleton.mp hRepo
  exact Entry.plain_directory (by decide) (by decide) (by simpa using hSource)

/-- A renderer that shows the text of each graph, and takes no time. -/
def mirror : Setting :=
  ⟨Grammar.Python.table .file, fun text => .ok (Text.Utf8.encode text.toList),
    fun _ => ⟨0⟩, fun _ => ⟨0⟩⟩

theorem images_owned_of_twins :
    ∃ summary paths turns entries,
      Ownership mirror (Plan.drawing "repo" "out" ".py" (.real Image.defaultScale))
        (.ofString "out") twins summary paths turns entries := by
  have hOk : (run mirror (Plan.drawing "repo" "out" ".py" (.real Image.defaultScale))
      twins).result.toBool = true := by decide +kernel
  cases hRun : (run mirror (Plan.drawing "repo" "out" ".py" (.real Image.defaultScale))
      twins).result with
  | error trouble =>
      rw [hRun] at hOk
      cases hOk
  | ok summary =>
      exact ⟨summary, images_owned mirror "repo" "out" ".py" (.real Image.defaultScale) plain_twins
        (Or.inl rfl) hRun⟩

/-- The directory of a path that goes up can hold more than images: what was made on the way stays
in it. -/
theorem directory_left_beside_images :
    let files : FileSystem := ⟨.directory [("repo", .directory [])], []⟩
    let plan := Plan.drawing "repo" "out/sub/.." ".py" (.real Image.defaultScale)
    files.root.Plain
      ∧ files.root.at? (files.absolute (.ofString "out/sub/..")).parts = none
      ∧ ¬(files.absolute (.ofString "repo")).parts
        <+: (files.absolute (.ofString "out/sub/..")).parts
      ∧ (run mirror plan files).result = .ok .empty
      ∧ (run mirror plan files).files.isDirectory (Path.child (.ofString "out/sub/..") "sub")
        = .ok true := by
  refine ⟨?_, rfl, by decide, by decide +kernel, by decide +kernel⟩
  exact Entry.plain_directory (by decide) (by decide)
    (by simpa using Entry.plain_directory (by simp) (by simp) (by simp))

end Survey

end SyntaxSurvey
