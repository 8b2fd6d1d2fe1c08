import SyntaxSurvey.Proofs.Discovery
import SyntaxSurvey.Proofs.Survey.Turn

/-! The invariant of a survey that draws images. After any number of turns the owner of a name is
the last turn that saved an image of that name, the directory holds what that turn drew, every
other record is without an image, and each record that lost its image was told of once. -/

namespace SyntaxSurvey.Survey

open FileSystem (Entry IsName Kind Location)

/-- The turn of that index is the last one that saved an image of that name. -/
def Latest (turns : List Turn) (name : String) (index : Nat) : Prop :=
  (∃ turn, turns[index]? = some turn ∧ turn.image = some name)
    ∧ ∀ later turn, index < later → turns[later]? = some turn → turn.image ≠ some name

/-- The turn of that index saved an image, and a later turn saved one of the same name. -/
def Lost (turns : List Turn) (index : Nat) : Prop :=
  ∃ name later turn other, turns[index]? = some turn ∧ turn.image = some name ∧ index < later
    ∧ turns[later]? = some other ∧ other.image = some name

/-- The source written so has lost its image. -/
def LostAs (turns : List Turn) (source : String) : Prop :=
  ∃ index turn, turns[index]? = some turn ∧ turn.source.text = source ∧ Lost turns index

section Turns

variable {turns : List Turn} {turn : Turn} {name : String} {index : Nat}

theorem lt_length_of_getElem? {old : Turn} (hOld : turns[index]? = some old) :
    index < turns.length :=
  (List.getElem?_eq_some_iff.mp hOld).1

/-- A turn that saves an image is the last one for its name; for other names nothing changes. -/
theorem latest_concat :
    Latest (turns ++ [turn]) name index
      ↔ if turn.image = some name then index = turns.length else Latest turns name index := by
  have hNew : (turns ++ [turn])[turns.length]? = some turn := by simp
  by_cases hImage : turn.image = some name
  · rw [if_pos hImage]
    constructor
    · rintro ⟨⟨old, hOld, hOldImage⟩, hLast⟩
      rcases getElem?_concat_eq_some.mp hOld with hBefore | ⟨hLength, -⟩
      · exact absurd hImage (hLast turns.length turn (lt_length_of_getElem? hBefore) hNew)
      · exact hLength
    · rintro rfl
      refine ⟨⟨turn, hNew, hImage⟩, fun later other hLater hOther => ?_⟩
      have hLength := lt_length_of_getElem? hOther
      rw [List.length_append, List.length_singleton] at hLength
      omega
  · rw [if_neg hImage]
    constructor
    · rintro ⟨⟨old, hOld, hOldImage⟩, hLast⟩
      refine ⟨⟨old, ?_, hOldImage⟩, fun later other hLater hOther => ?_⟩
      · rcases getElem?_concat_eq_some.mp hOld with hBefore | ⟨-, rfl⟩
        · exact hBefore
        · exact absurd hOldImage hImage
      · exact hLast later other hLater (getElem?_concat_eq_some.mpr (Or.inl hOther))
    · rintro ⟨⟨old, hOld, hOldImage⟩, hLast⟩
      refine ⟨⟨old, getElem?_concat_eq_some.mpr (Or.inl hOld), hOldImage⟩,
        fun later other hLater hOther => ?_⟩
      rcases getElem?_concat_eq_some.mp hOther with hBefore | ⟨-, rfl⟩
      · exact hLast later other hLater hBefore
      · exact hImage

/-- Another turn takes the image from those turns that saved one of the same name. -/
theorem lost_concat :
    Lost (turns ++ [turn]) index
      ↔ Lost turns index
        ∨ ∃ name old, turns[index]? = some old ∧ old.image = some name
          ∧ turn.image = some name := by
  constructor
  · rintro ⟨name, later, old, other, hOld, hOldImage, hLater, hOther, hOtherImage⟩
    have hLength := lt_length_of_getElem? hOther
    rw [List.length_append, List.length_singleton] at hLength
    have hBefore : turns[index]? = some old := by
      rcases getElem?_concat_eq_some.mp hOld with hBefore | ⟨rfl, -⟩
      · exact hBefore
      · omega
    rcases getElem?_concat_eq_some.mp hOther with hOtherBefore | ⟨-, rfl⟩
    · exact Or.inl ⟨name, later, old, other, hBefore, hOldImage, hLater, hOtherBefore, hOtherImage⟩
    · exact Or.inr ⟨name, old, hBefore, hOldImage, hOtherImage⟩
  · rintro (⟨name, later, old, other, hOld, hOldImage, hLater, hOther, hOtherImage⟩
      | ⟨name, old, hOld, hOldImage, hImage⟩)
    · exact ⟨name, later, old, other, getElem?_concat_eq_some.mpr (Or.inl hOld), hOldImage, hLater,
        getElem?_concat_eq_some.mpr (Or.inl hOther), hOtherImage⟩
    · exact ⟨name, turns.length, old, turn, getElem?_concat_eq_some.mpr (Or.inl hOld), hOldImage,
        lt_length_of_getElem? hOld, by simp, hImage⟩

/-- The image of the last turn was not lost. -/
theorem not_lost_of_length_le (hIndex : turns.length ≤ index + 1) : ¬Lost turns index := by
  rintro ⟨name, later, turn, other, -, -, hLater, hOther, -⟩
  have hLength := lt_length_of_getElem? hOther
  omega

/-- A turn that saved an image is the last one to have saved it or has lost it. -/
theorem latest_iff_not_lost (hTurn : turns[index]? = some turn) (hImage : turn.image = some name) :
    Latest turns name index ↔ ¬Lost turns index := by
  constructor
  · rintro ⟨-, hLast⟩ ⟨lost, later, old, other, hOld, hLost, hLater, hOther, hOtherImage⟩
    obtain rfl : old = turn := by simpa [hOld] using hTurn
    obtain rfl : lost = name := by simpa [hLost] using hImage
    exact hLast later other hLater hOther hOtherImage
  · intro hKept
    refine ⟨⟨turn, hTurn, hImage⟩, fun later other hLater hOther hOtherImage => ?_⟩
    exact hKept ⟨name, later, turn, other, hTurn, hImage, hLater, hOther, hOtherImage⟩

end Turns

/-- The image that the renderer makes of the tree of a source as it stands in a file system. -/
def rendition? (setting : Setting) (plan : Plan) (files : FileSystem) (path : Path) :
    Option (List UInt8) :=
  (Reading.ofFile setting.table files path (setting.parsing path)).tree.bind fun tree =>
    Image.drawing? setting.renderer tree plan.scale

/-- A survey that is about to begin: its directory for images has been made and is without files.
The sources stand in the file system from before. -/
structure Ready (plan : Plan) (directory : Path) (place : Location) (initial made : FileSystem) :
    Prop where
  plan : plan.imageDirectory? = some directory
  normal : directory.Normal
  initialPlain : initial.root.Plain
  plain : made.root.Plain
  here : made.here = initial.here
  kept : initial.root.KeptIn made.root
  found : ∃ entries, made.find directory = .ok (.present place (.directory entries))
  fresh : ∀ name, initial.root.kind? (place ++ [name]) = none
  fileless : ∀ name, made.root.kind? (place ++ [name]) = none
    ∨ made.root.kind? (place ++ [name]) = some .directory

/-- The invariant of a survey that draws images, after the given turns. -/
structure Ledger (setting : Setting) (plan : Plan) (directory : Path) (place : Location)
    (initial made : FileSystem) (turns : List Turn) (s : Survey) : Prop where
  here : s.files.here = made.here
  plain : s.files.root.Plain
  kept : made.root.KeptIn s.files.root
  length : s.summary.records.length = turns.length
  told : ∀ (index : Nat) turn record, turns[index]? = some turn →
    s.summary.records[index]? = some record →
      record.filename = turn.source.name ∧ record.filepath = turn.source.text
  named : ∀ turn ∈ turns, ∀ name, turn.image = some name →
    name = Image.nameFor turn.source plan.suffix ∧ IsName name
  owned : ∀ name index, s.owners.lookup name = some index → Latest turns name index
  unowned : ∀ name, s.owners.lookup name = none → ∀ turn ∈ turns, turn.image ≠ some name
  images : ∀ (index : Nat) record path, s.summary.records[index]? = some record →
    (record.imagePath = some path
      ↔ ∃ name, s.owners.lookup name = some index ∧ path = (directory.child name).text)
  drawn : ∀ (name : String) (index : Nat) turn, s.owners.lookup name = some index →
    turns[index]? = some turn →
      ∃ image, rendition? setting plan initial turn.source = some image
        ∧ s.files.root.kind? (place ++ [name]) = some (.file image)
  rest : ∀ other, (∀ name, other = place ++ [name] → s.owners.lookup name = none) →
    s.files.root.kind? other = made.root.kind? other
  distinct : ∀ (index other : Nat) turn later, turns[index]? = some turn →
    turns[other]? = some later → turn.source.text = later.source.text → index = other
  warned : ∀ source, (LostAs turns source → s.log.countP (Log.Event.overwrites source) = 1)
    ∧ (¬LostAs turns source → s.log.countP (Log.Event.overwrites source) = 0)

/-- The turn of a source saves no image. -/
structure Unsaved (setting : Setting) (plan : Plan) (directory : Path) (s : Survey)
    (path : Path) : Prop where
  turned : (s.turn setting plan directory path).image = none
  files : (s.saving setting plan directory path).files = s.files
  imagePath : (s.saving setting plan directory path).record.imagePath = none

/-- The turn of a source saves an image of it by a name in the directory. -/
structure Saved (setting : Setting) (plan : Plan) (directory : Path) (place : Location)
    (initial : FileSystem) (s : Survey) (path : Path) (name : String) (image : List UInt8) :
    Prop where
  named : name = Image.nameFor path plan.suffix
  isName : IsName name
  turned : (s.turn setting plan directory path).image = some name
  imagePath : (s.saving setting plan directory path).record.imagePath
    = some (directory.child name).text
  rendition : rendition? setting plan initial path = some image
  here : (s.saving setting plan directory path).files.here = s.files.here
  plain : (s.saving setting plan directory path).files.root.Plain
  noDirectory : s.files.root.kind? (place ++ [name]) ≠ some .directory
  put : ∀ other, (s.saving setting plan directory path).files.root.kind? other
    = if other = place ++ [name] then some (.file image) else s.files.root.kind? other

section Step

variable {setting : Setting} {plan : Plan} {directory : Path} {place : Location}
  {initial made : FileSystem} {turns : List Turn} {s : Survey} {path : Path}

/-- Before the first turn the ledger is in order. -/
theorem Ready.ledger (hReady : Ready plan directory place initial made) {log : Log}
    (hLog : log.Quiet) :
    Ledger setting plan directory place initial made [] (begin log made) where
  here := rfl
  plain := hReady.plain
  kept := .refl made.root
  length := rfl
  told := by simp
  named := by simp
  owned := by simp [begin]
  unowned := by simp
  images := by simp [begin, Summary.empty]
  drawn := by simp
  rest _ _ := rfl
  distinct := by simp
  warned source := by simp [begin, LostAs, hLog.countP_eq source]

namespace Ledger

/-- The record that a turn adds tells of its source. -/
theorem saving_told :
    (s.saving setting plan directory path).record.filename = path.name
      ∧ (s.saving setting plan directory path).record.filepath = path.text := by
  have hAbout := Reading.ofFile_about setting.table s.files path (setting.parsing path)
  obtain ⟨hFilename, hFilepath, -⟩ := Image.save_cases setting.renderer s.files
    (Reading.ofFile setting.table s.files path (setting.parsing path)).record
    (Reading.ofFile setting.table s.files path (setting.parsing path)).tree directory plan.suffix
    plan.scale (setting.drawing path)
  exact ⟨hFilename.trans hAbout.filename, hFilepath.trans hAbout.filepath⟩

/-- A source is read as it stood before the survey, since nothing that stood there has changed. -/
theorem reading_eq (hReady : Ready plan directory place initial made)
    (h : Ledger setting plan directory place initial made turns s)
    (hSource : Discovery.IsSource initial plan.suffix path) :
    Reading.ofFile setting.table s.files path (setting.parsing path)
      = Reading.ofFile setting.table initial path (setting.parsing path) := by
  obtain ⟨sourcePlace, content, hFind⟩ := hSource.isFile
  exact Reading.ofFile_congr setting.table initial path (setting.parsing path)
    (FileSystem.read_keep hReady.initialPlain h.plain (h.here.trans hReady.here)
      (hReady.kept.trans h.kept) hSource.normal hFind)

/-- The turn of a source comes to no image, or to the rendition of the source as it stood before
the survey, in a file of the directory and nowhere else. -/
theorem saving_cases (hReady : Ready plan directory place initial made)
    (h : Ledger setting plan directory place initial made turns s)
    (hSource : Discovery.IsSource initial plan.suffix path) :
    Unsaved setting plan directory s path
      ∨ ∃ name image, Saved setting plan directory place initial s path name image := by
  have hReading := h.reading_eq hReady hSource
  obtain ⟨hPath, hFiles, hImage⟩ | ⟨tree, image, hTree, hDrawing, hPath, hImage, hWrite⟩ :=
    saving_outcome s hSource.normal
  · exact Or.inl ⟨Option.map_eq_none_iff.mpr hPath, hFiles, hImage⟩
  · have hName := Image.isName_nameFor hSource.isName hSource.hasSuffix
    obtain ⟨entries, hFound⟩ := hReady.found
    obtain ⟨now, hNow, hKind⟩ :=
      FileSystem.find_keep hReady.plain h.plain h.here h.kept hReady.normal hFound
    cases now with
    | file content => cases hKind
    | link target => cases hKind
    | directory inner =>
        obtain ⟨hHere, hPlain, hNoDirectory, hPut⟩ :=
          FileSystem.write_child_ok h.plain hReady.normal hName hNow hWrite
        refine Or.inr ⟨_, image, ⟨rfl, hName, ?_, hImage, ?_, hHere, hPlain, hNoDirectory, hPut⟩⟩
        · refine Option.map_eq_some_iff.mpr ⟨_, hPath, ?_⟩
          simp [Path.name, Path.child]
        · rw [hReading] at hTree
          simp [rendition?, hTree, hDrawing]

variable (hReady : Ready plan directory place initial made)
  (h : Ledger setting plan directory place initial made turns s)

include h

theorem owner_lt {name : String} {index : Nat} (hOwner : s.owners.lookup name = some index) :
    index < turns.length := by
  obtain ⟨⟨turn, hTurn, -⟩, -⟩ := h.owned name index hOwner
  exact lt_length_of_getElem? hTurn

/-- A record owns the image of one name at most. -/
theorem owner_name {name other : String} {index : Nat} (hOwner : s.owners.lookup name = some index)
    (hOther : s.owners.lookup other = some index) : name = other := by
  obtain ⟨⟨turn, hTurn, hImage⟩, -⟩ := h.owned name index hOwner
  obtain ⟨⟨same, hSame, hSameImage⟩, -⟩ := h.owned other index hOther
  obtain rfl : turn = same := by simpa [hTurn] using hSame
  simpa [hImage] using hSameImage

include hReady

/-- After a turn, the owner of an image is the latest source with its name. -/
theorem step_owned {name : String} {index : Nat}
    (hOwner : (s.visit setting plan path).owners.lookup name = some index) :
    Latest (turns ++ [s.turn setting plan directory path]) name index := by
  rw [visit_owners hReady.plan] at hOwner
  rw [latest_concat]
  split at hOwner
  · rename_i hImage
    rw [if_pos hImage, ← h.length]
    exact (Option.some.inj hOwner).symm
  · rename_i hImage
    rw [if_neg hImage]
    exact h.owned name index hOwner

/-- After a turn, an image without an owner was saved in no turn. -/
theorem step_unowned {name : String}
    (hOwner : (s.visit setting plan path).owners.lookup name = none) :
    ∀ turn ∈ turns ++ [s.turn setting plan directory path], turn.image ≠ some name := by
  rw [visit_owners hReady.plan] at hOwner
  split at hOwner
  · cases hOwner
  · rename_i hImage
    intro turn hTurn
    rcases List.mem_append.mp hTurn with hOld | hNew
    · exact h.unowned name hOwner turn hOld
    · rw [List.mem_singleton.mp hNew]
      exact hImage

/-- Who owns a name after a turn owned it before, or is the record of the turn. -/
theorem step_owner_cases {name : String} {index : Nat}
    (hOwner : (s.visit setting plan path).owners.lookup name = some index) :
    index = turns.length ∧ (s.turn setting plan directory path).image = some name
      ∨ index < turns.length ∧ (s.turn setting plan directory path).image ≠ some name
        ∧ s.owners.lookup name = some index := by
  rw [visit_owners hReady.plan] at hOwner
  split at hOwner
  · rename_i hImage
    exact Or.inl ⟨by rw [← h.length]; exact (Option.some.inj hOwner).symm, hImage⟩
  · rename_i hImage
    exact Or.inr ⟨h.owner_lt hOwner, hImage, hOwner⟩

/-- After a turn, records are still about the sources of the turns. -/
theorem step_told {index : Nat} {turn : Turn} {record : Record}
    (hTurn : (turns ++ [s.turn setting plan directory path])[index]? = some turn)
    (hRecord : (s.visit setting plan path).summary.records[index]? = some record) :
    record.filename = turn.source.name ∧ record.filepath = turn.source.text := by
  rcases (getElem?_visit_records hReady.plan).mp hRecord with ⟨old, hOld, rfl⟩ | ⟨rfl, rfl⟩
  · rcases getElem?_concat_eq_some.mp hTurn with hBefore | ⟨rfl, -⟩
    · have hTold := h.told index turn old hBefore hOld
      split
      · exact hTold
      · exact hTold
    · rw [← h.length] at hOld
      simp at hOld
  · rw [h.length] at hTurn
    obtain rfl : s.turn setting plan directory path = turn := by simpa using hTurn
    exact saving_told

/-- An earlier record keeps its image unless the turn saves one of the same name. -/
theorem step_images_old {index : Nat} {old : Record} {image : String}
    (hOld : s.summary.records[index]? = some old) :
    (if s.loser? (s.turn setting plan directory path) = some index
        then { old with imagePath := none } else old).imagePath = some image
      ↔ ∃ name, (s.visit setting plan path).owners.lookup name = some index
          ∧ image = (directory.child name).text := by
  have hIndex : index < turns.length := by
    rw [← h.length]
    exact (List.getElem?_eq_some_iff.mp hOld).1
  split
  · rename_i hLoser
    obtain ⟨name, hImage, hOwner⟩ := Option.bind_eq_some_iff.mp hLoser
    constructor
    · intro hNone
      cases hNone
    · rintro ⟨other, hOther, -⟩
      rcases h.step_owner_cases hReady hOther with ⟨rfl, -⟩ | ⟨-, hKept, hOther⟩
      · exact absurd hIndex (Nat.lt_irrefl _)
      · exact absurd (h.owner_name hOwner hOther ▸ hImage) hKept
  · rename_i hNoLoser
    rw [h.images index old image hOld]
    constructor
    · rintro ⟨name, hOwner, hText⟩
      refine ⟨name, ?_, hText⟩
      rw [visit_owners hReady.plan, if_neg, hOwner]
      intro hImage
      exact hNoLoser (Option.bind_eq_some_iff.mpr ⟨name, hImage, hOwner⟩)
    · rintro ⟨name, hOwner, hText⟩
      rcases h.step_owner_cases hReady hOwner with ⟨rfl, -⟩ | ⟨-, -, hBefore⟩
      · exact absurd hIndex (Nat.lt_irrefl _)
      · exact ⟨name, hBefore, hText⟩

/-- After a turn, a record has an image exactly if its source owns it. -/
theorem step_images (hSource : Discovery.IsSource initial plan.suffix path) {index : Nat}
    {record : Record} {image : String}
    (hRecord : (s.visit setting plan path).summary.records[index]? = some record) :
    record.imagePath = some image
      ↔ ∃ name, (s.visit setting plan path).owners.lookup name = some index
          ∧ image = (directory.child name).text := by
  rcases (getElem?_visit_records hReady.plan).mp hRecord with ⟨old, hOld, rfl⟩ | ⟨rfl, rfl⟩
  · exact h.step_images_old hReady hOld
  · -- the new record owns the image of its turn, and no other
    have hOwner (name : String) :
        (s.visit setting plan path).owners.lookup name = some s.summary.records.length
          ↔ (s.turn setting plan directory path).image = some name := by
      constructor
      · intro hLookup
        rcases h.step_owner_cases hReady hLookup with ⟨-, hImage⟩ | ⟨hLt, -, -⟩
        · exact hImage
        · exact absurd (h.length ▸ hLt) (Nat.lt_irrefl _)
      · intro hImage
        rw [visit_owners hReady.plan, if_pos hImage]
    simp only [hOwner]
    rcases h.saving_cases hReady hSource with hNot | ⟨name, drawn, hSaved⟩
    · simp [hNot.turned, hNot.imagePath]
    · simp [hSaved.turned, hSaved.imagePath, eq_comm]

/-- After a turn, the directories that were made are still there: where a file was written there was
no directory, and hence nothing, at the beginning. -/
theorem step_kept (hSource : Discovery.IsSource initial plan.suffix path) :
    made.root.KeptIn (s.visit setting plan path).files.root := by
  rw [visit_files hReady.plan]
  rcases h.saving_cases hReady hSource with hNot | ⟨name, image, hSaved⟩
  · rw [hNot.files]
    exact h.kept
  · intro other kind hKind
    have hNow := h.kept other kind hKind
    rw [hSaved.put, if_neg, hNow]
    rintro rfl
    rcases hReady.fileless name with hNone | hDirectory
    · simp [hNone] at hKind
    · exact hSaved.noDirectory (h.kept _ _ hDirectory)

/-- After a turn, the file of an image holds what its owner is drawn as. -/
theorem step_drawn (hSource : Discovery.IsSource initial plan.suffix path) {name : String}
    {index : Nat} {turn : Turn}
    (hOwner : (s.visit setting plan path).owners.lookup name = some index)
    (hTurn : (turns ++ [s.turn setting plan directory path])[index]? = some turn) :
    ∃ image, rendition? setting plan initial turn.source = some image
      ∧ (s.visit setting plan path).files.root.kind? (place ++ [name]) = some (.file image) := by
  rw [visit_files hReady.plan]
  rcases h.step_owner_cases hReady hOwner with ⟨rfl, hImage⟩ | ⟨hLt, hOther, hBefore⟩
  · obtain rfl : s.turn setting plan directory path = turn := by simpa using hTurn
    rcases h.saving_cases hReady hSource with hNot | ⟨own, image, hSaved⟩
    · simp [hNot.turned] at hImage
    · obtain rfl : own = name := by simpa [hSaved.turned] using hImage
      exact ⟨image, hSaved.rendition, by simp [hSaved.put]⟩
  · rw [List.getElem?_append_left hLt] at hTurn
    obtain ⟨image, hRendition, hKind⟩ := h.drawn name index turn hBefore hTurn
    refine ⟨image, hRendition, ?_⟩
    rcases h.saving_cases hReady hSource with hNot | ⟨own, drawn, hSaved⟩
    · rw [hNot.files, hKind]
    · rw [hSaved.put, if_neg, hKind]
      intro hPlace
      obtain rfl : name = own := by simpa using hPlace
      exact hOther hSaved.turned

/-- After a turn, all places but those of images are as they were. -/
theorem step_rest (hSource : Discovery.IsSource initial plan.suffix path) {other : Location}
    (hOther : ∀ name, other = place ++ [name] →
      (s.visit setting plan path).owners.lookup name = none) :
    (s.visit setting plan path).files.root.kind? other = made.root.kind? other := by
  have hBefore : s.files.root.kind? other = made.root.kind? other := by
    refine h.rest other fun name hPlace => ?_
    have hNone := hOther name hPlace
    rw [visit_owners hReady.plan] at hNone
    split at hNone
    · cases hNone
    · exact hNone
  rw [visit_files hReady.plan]
  rcases h.saving_cases hReady hSource with hNot | ⟨own, drawn, hSaved⟩
  · rw [hNot.files, hBefore]
  · rw [hSaved.put, if_neg, hBefore]
    intro hPlace
    have hNone := hOther own hPlace
    rw [visit_owners hReady.plan, if_pos hSaved.turned] at hNone
    cases hNone

omit hReady in
/-- A turn that takes an image away makes its owner one of those that have lost theirs. -/
theorem step_lostAs {name : String} {loser : Nat} {owner : Turn} {turn : Turn}
    (hImage : turn.image = some name) (hOwner : s.owners.lookup name = some loser)
    (hTurn : turns[loser]? = some owner) (source : String) :
    LostAs (turns ++ [turn]) source ↔ owner.source.text = source ∨ LostAs turns source := by
  have hLatest := h.owned name loser hOwner
  obtain ⟨⟨same, hSame, hOwnerImage⟩, hLast⟩ := hLatest
  obtain rfl : owner = same := by simpa [hTurn] using hSame
  constructor
  · rintro ⟨index, old, hOld, hText, hLost⟩
    have hBefore : turns[index]? = some old := by
      rcases getElem?_concat_eq_some.mp hOld with hBefore | ⟨rfl, -⟩
      · exact hBefore
      · exact absurd hLost (not_lost_of_length_le (by simp))
    rcases lost_concat.mp hLost with hLost | ⟨other, drawn, hDrawn, hOther, hAgain⟩
    · exact Or.inr ⟨index, old, hBefore, hText, hLost⟩
    · -- a turn that saved this image lost it before, unless it is the owner
      obtain rfl : drawn = old := by simpa [hBefore] using hDrawn.symm
      obtain rfl : other = name := by simpa [hAgain] using hImage
      rcases Nat.lt_trichotomy index loser with hLt | rfl | hGt
      · exact Or.inr ⟨index, drawn, hBefore, hText, other, loser, drawn, owner, hBefore, hOther,
          hLt, hTurn, hOwnerImage⟩
      · obtain rfl : drawn = owner := by simpa [hTurn] using hBefore.symm
        exact Or.inl hText
      · exact absurd hOther (hLast index drawn hGt hBefore)
  · rintro (hText | ⟨index, old, hOld, hText, hLost⟩)
    · exact ⟨loser, owner, getElem?_concat_eq_some.mpr (Or.inl hTurn), hText,
        lost_concat.mpr (Or.inr ⟨name, owner, hTurn, hOwnerImage, hImage⟩)⟩
    · exact ⟨index, old, getElem?_concat_eq_some.mpr (Or.inl hOld), hText,
        lost_concat.mpr (Or.inl hLost)⟩

omit hReady in
/-- A turn that takes no image away leaves those that have lost theirs. -/
theorem step_lostAs_of_none {turn : Turn} (hLoser : s.loser? turn = none) (source : String) :
    LostAs (turns ++ [turn]) source ↔ LostAs turns source := by
  constructor
  · rintro ⟨index, old, hOld, hText, hLost⟩
    rcases lost_concat.mp hLost with hBefore | ⟨name, drawn, hDrawn, hName, hImage⟩
    · rcases getElem?_concat_eq_some.mp hOld with hOld | ⟨rfl, -⟩
      · exact ⟨index, old, hOld, hText, hBefore⟩
      · exact absurd hBefore (not_lost_of_length_le (Nat.le_succ _))
    · rw [loser?, hImage, Option.bind_some] at hLoser
      exact absurd hName (h.unowned name hLoser drawn (List.mem_of_getElem? hDrawn))
  · rintro ⟨index, old, hOld, hText, hLost⟩
    exact ⟨index, old, getElem?_concat_eq_some.mpr (Or.inl hOld), hText,
      lost_concat.mpr (Or.inl hLost)⟩

/-- Each source that has lost its image has been told of once. -/
theorem step_warned (source : String) :
    (LostAs (turns ++ [s.turn setting plan directory path]) source →
      (s.visit setting plan path).log.countP (Log.Event.overwrites source) = 1)
    ∧ (¬LostAs (turns ++ [s.turn setting plan directory path]) source →
      (s.visit setting plan path).log.countP (Log.Event.overwrites source) = 0) := by
  rw [visit_log hReady.plan]
  cases hLoser : s.loser? (s.turn setting plan directory path) with
  | none =>
      rw [h.step_lostAs_of_none hLoser source]
      exact h.warned source
  | some loser =>
      obtain ⟨name, hImage, hOwner⟩ := Option.bind_eq_some_iff.mp hLoser
      obtain ⟨⟨owner, hTurn, hOwnerImage⟩, hLast⟩ := h.owned name loser hOwner
      have hLatest : Latest turns name loser := ⟨⟨owner, hTurn, hOwnerImage⟩, hLast⟩
      obtain ⟨record, hRecord⟩ : ∃ record, s.summary.records[loser]? = some record := by
        have hLt := h.length ▸ h.owner_lt hOwner
        exact ⟨_, List.getElem?_eq_getElem hLt⟩
      have hFilepath := (h.told loser owner record hTurn hRecord).2
      rw [h.step_lostAs hImage hOwner hTurn source]
      simp only [hRecord, Option.map_some, Option.getD_some, hFilepath]
      by_cases hText : owner.source.text = source
      · -- the owner has not been told of before
        have hNot : ¬LostAs turns source := by
          rintro ⟨index, old, hOld, hOldText, hLost⟩
          obtain rfl := h.distinct index loser old owner hOld hTurn (hOldText.trans hText.symm)
          exact (latest_iff_not_lost hTurn hOwnerImage).mp hLatest hLost
        simp [hText, (h.warned source).2 hNot]
      · simpa [hText] using h.warned source

/-- The invariant after one more turn. -/
theorem step (hSource : Discovery.IsSource initial plan.suffix path)
    (hNew : ∀ turn ∈ turns, turn.source.text ≠ path.text) :
    Ledger setting plan directory place initial made
      (turns ++ [s.turn setting plan directory path]) (s.visit setting plan path) where
  here := by
    rw [visit_files hReady.plan]
    rcases h.saving_cases hReady hSource with hNot | ⟨name, image, hSaved⟩
    · rw [hNot.files, h.here]
    · rw [hSaved.here, h.here]
  plain := by
    rw [visit_files hReady.plan]
    rcases h.saving_cases hReady hSource with hNot | ⟨name, image, hSaved⟩
    · rw [hNot.files]
      exact h.plain
    · exact hSaved.plain
  kept := h.step_kept hReady hSource
  length := by
    rw [length_visit_records hReady.plan, h.length, List.length_append, List.length_singleton]
  told index turn record := h.step_told hReady
  named turn hTurn name hImage := by
    rcases List.mem_append.mp hTurn with hOld | hLast
    · exact h.named turn hOld name hImage
    · obtain rfl := List.mem_singleton.mp hLast
      rcases h.saving_cases hReady hSource with hNot | ⟨own, image, hSaved⟩
      · simp [hNot.turned] at hImage
      · obtain rfl : own = name := by simpa [hSaved.turned] using hImage
        exact ⟨hSaved.named, hSaved.isName⟩
  owned name index := h.step_owned hReady
  unowned name := h.step_unowned hReady
  images index record image := h.step_images hReady hSource
  drawn name index turn := h.step_drawn hReady hSource
  rest other := h.step_rest hReady hSource
  distinct index other turn later hTurn hLater hText := by
    rcases getElem?_concat_eq_some.mp hTurn with hTurn | ⟨rfl, rfl⟩ <;>
      rcases getElem?_concat_eq_some.mp hLater with hLater | ⟨rfl, rfl⟩
    · exact h.distinct index other turn later hTurn hLater hText
    · exact absurd hText (hNew turn (List.mem_of_getElem? hTurn))
    · exact absurd hText.symm (hNew later (List.mem_of_getElem? hLater))
    · rfl
  warned := h.step_warned hReady

/-- The invariant after all turns. -/
theorem run {paths : List Path}
    (hSources : ∀ path ∈ paths, Discovery.IsSource initial plan.suffix path)
    (hDistinct : (turns.map (fun turn => turn.source.text) ++ paths.map Path.text).Nodup) :
    Ledger setting plan directory place initial made (turns ++ s.turns setting plan directory paths)
      (s.visitAll setting plan paths) := by
  induction paths generalizing turns s with
  | nil => simpa [Survey.turns, visitAll] using h
  | cons path paths ih =>
      have hNew : ∀ turn ∈ turns, turn.source.text ≠ path.text := by
        intro turn hTurn
        exact (List.nodup_append.mp hDistinct).2.2 _ (List.mem_map.mpr ⟨turn, hTurn, rfl⟩) _
          (by simp)
      have hStep := h.step hReady (hSources path (by simp)) hNew
      have hRest := ih hStep (fun other hOther => hSources other (List.mem_cons_of_mem path hOther))
        (by simpa [turn] using hDistinct)
      simpa [Survey.turns, visitAll] using hRest

end Ledger

end Step

end SyntaxSurvey.Survey
