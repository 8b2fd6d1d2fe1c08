import SyntaxSurvey.Proofs.FileSystem.Directories
import SyntaxSurvey.Proofs.Survey.Coherence

/-! What keeps a survey from ending with a summary. The sources are looked for and the directory for
images is made before the first source is read; after that nothing stops a survey, whatever comes
of single sources. All this is about directory trees whose names are texts and where everything is
permitted. -/

namespace SyntaxSurvey

open Number (Quantity)

namespace FileSystem

variable {files : FileSystem} {path : Path} {question : Entry → Bool}

/-- A question about a path fails exactly if a name is too long when it is looked up. -/
theorem ask_eq_error_iff {failure : Failure} :
    files.ask path question = .error failure
      ↔ files.find path = .error .nameTooLong ∧ failure = ⟨.nameTooLong, path⟩ := by
  rw [ask]
  cases files.find path with
  | ok found => cases found <;> simp
  | error cause => cases cause <;> simp [eq_comm]

/-- A question is answered, unless a name is too long. -/
theorem exists_answer (question : Entry → Bool) (hFind : files.find path ≠ .error .nameTooLong) :
    ∃ answer, files.ask path question = .ok answer := by
  cases hAsk : files.ask path question with
  | ok answer => exact ⟨answer, rfl⟩
  | error failure => exact absurd (ask_eq_error_iff.mp hAsk).1 hFind

theorem pathExists_eq_true :
    files.pathExists path = .ok true
      ↔ ∃ place entry, files.find path = .ok (.present place entry) := by
  rw [pathExists, ask]
  constructor
  · intro hExists
    split at hExists
    · exact ⟨_, _, ‹_›⟩
    all_goals cases hExists
  · rintro ⟨place, entry, hFind⟩
    rw [hFind]

end FileSystem

namespace Discovery

variable {files : FileSystem} {root : Path} {suffix : String} {paths : List Path}
  {trouble : Trouble}

/-- Why the sources below a root cannot be enumerated: the root is missing or no directory, or there
is a path, of the root or of something below it, that is too long to be looked up. -/
inductive Barred (files : FileSystem) (root : Path) : Trouble → Prop where
  | rootUnasked (hFind : files.find root = .error .nameTooLong) :
      Barred files root (.file ⟨.nameTooLong, root⟩)
  | rootMissing (hAsked : files.find root ≠ .error .nameTooLong)
      (hNone : ∀ place entry, files.find root ≠ .ok (.present place entry)) :
      Barred files root (.rootMissing root)
  | rootNotDirectory {place : FileSystem.Location} {entry : FileSystem.Entry}
      (hFind : files.find root = .ok (.present place entry))
      (hNot : ∀ entries, entry ≠ .directory entries) : Barred files root (.rootNotDirectory root)
  | entryUnasked {path : Path} (hRoot : files.isDirectory root = .ok true)
      (hMem : path ∈ (files.entriesBelow root).map Prod.fst)
      (hFind : files.find path = .error .nameTooLong) :
      Barred files root (.file ⟨.nameTooLong, path⟩)

/-- Asking which paths are files fails for a name that is too long. -/
theorem onlyFiles_error (hError : onlyFiles files paths = .error trouble) :
    ∃ path ∈ paths, files.find path = .error .nameTooLong
      ∧ trouble = .file ⟨.nameTooLong, path⟩ := by
  induction paths with
  | nil => cases hError
  | cons path paths ih =>
      rw [onlyFiles] at hError
      cases hFile : files.isFile path with
      | error failure =>
          simp only [hFile, Except.error.injEq] at hError
          obtain ⟨hFind, rfl⟩ := FileSystem.ask_eq_error_iff.mp hFile
          exact ⟨path, List.mem_cons_self .., hFind, hError.symm⟩
      | ok isFile =>
          cases hRest : onlyFiles files paths with
          | error other =>
              simp only [hFile, hRest, Except.error.injEq] at hError
              obtain ⟨found, hMem, hFind, hOther⟩ := ih (hError ▸ hRest)
              exact ⟨found, List.mem_cons_of_mem _ hMem, hFind, hOther⟩
          | ok rest => cases isFile <;> simp [hFile, hRest] at hError

theorem asked_of_onlyFiles {found : List Path} (hFound : onlyFiles files paths = .ok found)
    {path : Path} (hMem : path ∈ paths) : files.find path ≠ .error .nameTooLong := by
  induction paths generalizing found with
  | nil => cases hMem
  | cons first paths ih =>
      rw [onlyFiles] at hFound
      cases hFile : files.isFile first with
      | error failure => simp [hFile] at hFound
      | ok isFile =>
          cases hRest : onlyFiles files paths with
          | error trouble => simp [hFile, hRest] at hFound
          | ok rest =>
              rcases List.mem_cons.mp hMem with rfl | hOther
              · intro hFind
                have hError : files.isFile path = .error ⟨.nameTooLong, path⟩ :=
                  FileSystem.ask_eq_error_iff.mpr ⟨hFind, rfl⟩
                simp [hFile] at hError
              · exact ih hRest hOther

/-- The paths that are kept are those of files. -/
theorem mem_onlyFiles_iff {found : List Path} (hFound : onlyFiles files paths = .ok found)
    {path : Path} : path ∈ found ↔ path ∈ paths ∧ files.isFile path = .ok true := by
  induction paths generalizing found with
  | nil =>
      cases hFound
      simp
  | cons first paths ih =>
      rw [onlyFiles] at hFound
      cases hFile : files.isFile first with
      | error failure => simp [hFile] at hFound
      | ok isFile =>
          cases hRest : onlyFiles files paths with
          | error trouble => simp [hFile, hRest] at hFound
          | ok rest =>
              cases isFile with
              | false =>
                  simp only [hFile, hRest, Except.ok.injEq] at hFound
                  rw [← hFound, ih hRest, List.mem_cons]
                  constructor
                  · exact fun h => ⟨Or.inr h.1, h.2⟩
                  · rintro ⟨rfl | hMem, hPath⟩
                    · simp [hFile] at hPath
                    · exact ⟨hMem, hPath⟩
              | true =>
                  simp only [hFile, hRest, Except.ok.injEq] at hFound
                  rw [← hFound, List.mem_cons, List.mem_cons, ih hRest]
                  constructor
                  · rintro (rfl | h)
                    · exact ⟨Or.inl rfl, hFile⟩
                    · exact ⟨Or.inr h.1, h.2⟩
                  · rintro ⟨rfl | hMem, hPath⟩
                    · exact Or.inl rfl
                    · exact Or.inr ⟨hMem, hPath⟩

/-- The sources are the files below the root whose names have the ending. -/
theorem mem_sources_iff (hSources : sources files root suffix = .ok paths) {path : Path} :
    path ∈ paths ↔ path ∈ (files.entriesBelow root).map Prod.fst
      ∧ files.isFile path = .ok true ∧ hasSuffix suffix path = true := by
  obtain ⟨found, hFound, hPerm⟩ := sources_ok hSources
  rw [hPerm.mem_iff, List.mem_filter, mem_onlyFiles_iff hFound, and_assoc]

/-- Where sources cannot be found, the root is barred by that trouble. -/
theorem barred_of_sources (hSources : sources files root suffix = .error trouble) :
    Barred files root trouble := by
  rw [sources] at hSources
  cases hExists : files.pathExists root with
  | error failure =>
      simp only [hExists, Except.error.injEq] at hSources
      obtain ⟨hFind, rfl⟩ := FileSystem.ask_eq_error_iff.mp hExists
      exact hSources ▸ .rootUnasked hFind
  | ok present =>
      have hAsked : files.find root ≠ .error .nameTooLong := fun hFind => by
        have hError : files.pathExists root = .error ⟨.nameTooLong, root⟩ :=
          FileSystem.ask_eq_error_iff.mpr ⟨hFind, rfl⟩
        simp [hExists] at hError
      obtain ⟨isDirectory, hDirectory⟩ : ∃ answer, files.isDirectory root = .ok answer :=
        FileSystem.exists_answer _ hAsked
      cases present with
      | false =>
          simp only [hExists, hDirectory, Except.error.injEq] at hSources
          refine hSources ▸ .rootMissing hAsked fun place entry hFind => ?_
          have hTrue := FileSystem.pathExists_eq_true.mpr ⟨place, entry, hFind⟩
          simp [hExists] at hTrue
      | true =>
          cases isDirectory with
          | false =>
              simp only [hExists, hDirectory, Except.error.injEq] at hSources
              obtain ⟨place, entry, hFind⟩ := FileSystem.pathExists_eq_true.mp hExists
              refine hSources ▸ .rootNotDirectory hFind fun entries hEntry => ?_
              have hTrue := FileSystem.isDirectory_eq_true.mpr ⟨place, entries, hEntry ▸ hFind⟩
              simp [hDirectory] at hTrue
          | true =>
              simp only [hExists, hDirectory] at hSources
              cases hFound : onlyFiles files ((files.entriesBelow root).map Prod.fst) with
              | ok found => simp [hFound, Except.map] at hSources
              | error other =>
                  obtain ⟨path, hMem, hFind, rfl⟩ := onlyFiles_error hFound
                  simp only [hFound, Except.map, Except.error.injEq] at hSources
                  exact hSources ▸ .entryUnasked hDirectory hMem hFind

/-- Below a root that is barred no sources are found, since they are found only below one that is a
directory. -/
theorem Barred.sources (hBarred : Barred files root trouble) (suffix : String) :
    ∃ other, Discovery.sources files root suffix = .error other := by
  cases hSources : Discovery.sources files root suffix with
  | error other => exact ⟨other, rfl⟩
  | ok paths =>
      obtain ⟨found, hFound, -⟩ := sources_ok hSources
      rw [Discovery.sources] at hSources
      split at hSources
      all_goals try cases hSources
      rename_i hExists hDirectory
      obtain ⟨place, entries, hFind⟩ := FileSystem.isDirectory_eq_true.mp hDirectory
      cases hBarred with
      | rootUnasked hLong => simp [hFind] at hLong
      | rootMissing _ hNone => exact absurd hFind (hNone place _)
      | rootNotDirectory hOther hNot =>
          rw [hFind] at hOther
          cases hOther
          exact absurd rfl (hNot entries)
      | entryUnasked _ hMem hLong => exact absurd hLong (asked_of_onlyFiles hFound hMem)

end Discovery

namespace Survey

variable {setting : Setting} {plan : Plan} {files : FileSystem} {trouble : Trouble}

/-- Why a survey cannot begin: its sources cannot be enumerated, or they can, and then the directory
for images cannot be made. -/
inductive Hindered (plan : Plan) (files : FileSystem) : Trouble → Prop where
  | barred {trouble : Trouble} (hBarred : Discovery.Barred files plan.root trouble) :
      Hindered plan files trouble
  | noDirectory {directory : Path} {failure : FileSystem.Failure}
      (hOpen : ∀ trouble, ¬Discovery.Barred files plan.root trouble)
      (hPlan : plan.imageDirectory? = some directory)
      (hMake : (files.makeDirectories directory).2 = some failure) :
      Hindered plan files (.file failure)

/-- A survey that ends without a summary is hindered by its trouble. -/
theorem hindered_of_run (hRun : (run setting plan files).result = .error trouble) :
    Hindered plan files trouble := by
  rw [run] at hRun
  cases hSources : Discovery.sources files plan.root plan.suffix with
  | error other =>
      simp only [hSources, Except.error.injEq] at hRun
      exact hRun ▸ .barred (Discovery.barred_of_sources hSources)
  | ok paths =>
      have hOpen (other : Trouble) : ¬Discovery.Barred files plan.root other := fun hBarred => by
        obtain ⟨found, hFound⟩ := hBarred.sources plan.suffix
        simp [hSources] at hFound
      simp only [hSources] at hRun
      cases hPlan : plan.imageDirectory? with
      | none => simp [hPlan, complete] at hRun
      | some directory =>
          cases hMake : files.makeDirectories directory with
          | mk made failed =>
              cases failed with
              | none => simp [hPlan, hMake, complete] at hRun
              | some failure =>
                  simp only [hPlan, hMake, Except.error.injEq] at hRun
                  exact hRun ▸ .noDirectory hOpen hPlan (by rw [hMake])

theorem isOfFiles_of_barred {root : Path} (h : Discovery.Barred files root trouble) :
    trouble.isOfFiles = true := by
  cases h <;> rfl

/-- Whatever hinders a survey, it ends in the same way. -/
theorem Hindered.isOfFiles_eq {other : Trouble} (h : Hindered plan files trouble)
    (h' : Hindered plan files other) : trouble.isOfFiles = other.isOfFiles := by
  cases h with
  | barred hBarred =>
      rw [isOfFiles_of_barred hBarred]
      cases h' with
      | barred hOther => exact (isOfFiles_of_barred hOther).symm
      | noDirectory hOpen => exact absurd hBarred (hOpen _)
  | noDirectory hOpen hPlan hMake =>
      cases h' with
      | barred hOther => exact absurd hOther (hOpen _)
      | noDirectory _ hPlan' hMake' =>
          obtain rfl := Option.some.inj (hPlan.symm.trans hPlan')
          rw [Option.some.inj (hMake.symm.trans hMake')]

theorem exists_sources (suffix : String)
    (hOpen : ∀ trouble, ¬Discovery.Barred files plan.root trouble) :
    ∃ paths, Discovery.sources files plan.root suffix = .ok paths := by
  cases hSources : Discovery.sources files plan.root suffix with
  | ok paths => exact ⟨paths, rfl⟩
  | error other => exact absurd (Discovery.barred_of_sources hSources) (hOpen other)

/-- The trouble of a directory that cannot be made is what the survey ends with. -/
theorem run_of_no_directory_made {directory : Path} {failure : FileSystem.Failure}
    (hOpen : ∀ trouble, ¬Discovery.Barred files plan.root trouble)
    (hPlan : plan.imageDirectory? = some directory)
    (hMake : (files.makeDirectories directory).2 = some failure) :
    (run setting plan files).result = .error (.file failure) := by
  obtain ⟨paths, hSources⟩ := exists_sources plan.suffix hOpen
  cases hMade : files.makeDirectories directory with
  | mk made failed =>
      rw [hMade] at hMake
      obtain rfl : failed = some failure := hMake
      rw [run, hSources]
      simp only [hPlan, hMade]

/-- A survey that is hindered ends without a summary. -/
theorem Hindered.run (h : Hindered plan files trouble) (setting : Setting) :
    ∃ other, (Survey.run setting plan files).result = .error other := by
  cases h with
  | barred hBarred =>
      obtain ⟨other, hSources⟩ := hBarred.sources plan.suffix
      exact ⟨other, by rw [Survey.run, hSources]⟩
  | noDirectory hOpen hPlan hMake => exact ⟨_, run_of_no_directory_made hOpen hPlan hMake⟩

/-- A survey that ends with a summary has a record for each source, in the order of the sources. -/
theorem filepaths_of_run {summary : Summary} (hRun : (run setting plan files).result = .ok summary) :
    ∃ paths, Discovery.sources files plan.root plan.suffix = .ok paths
      ∧ summary.records.map Record.filepath = paths.map Path.text := by
  obtain ⟨paths, hSources, rfl, -, -⟩ := run_stage hRun
  refine ⟨paths, hSources, List.ext_getElem? fun index => ?_⟩
  rw [List.getElem?_map, List.getElem?_map]
  cases hRecord : (stage setting plan files paths paths.length).summary.records[index]? with
  | some record =>
      obtain ⟨path, image, hPath, rfl, -⟩ := record_of_stage hRecord
      rw [hPath]
      exact congrArg some (filepath_added setting plan _ path)
  | none =>
      have hLength : (stage setting plan files paths paths.length).summary.records.length
          = paths.length := length_stage (Nat.le_refl _)
      have hOut := List.getElem?_eq_none_iff.mp hRecord
      rw [List.getElem?_eq_none_iff.mpr (by omega)]
      rfl

/-- In a directory tree of this library, where names are texts and everything is permitted, a survey
ends without a summary exactly if it is hindered: by its root, or by the directory for images, and
that whatever the settings and the scale are. The latter happens exactly if there is no such
directory after the attempt to make it; a file at its path is enough. Otherwise the summary has a
record for each file below the root whose name has the ending. A root that may not be listed and a
directory that may not be made would hinder a survey in the same way, but are in no such tree. -/
theorem run_error_iff (setting : Setting) (root : String) (mode : Mode) (suffix : String)
    (output : Option String) (scale : Quantity) (files : FileSystem) :
    let plan := Plan.asked root mode suffix output scale
    (∀ trouble, (run setting plan files).result = .error trouble → Hindered plan files trouble) ∧
    ((∃ trouble, (run setting plan files).result = .error trouble)
      ↔ ∃ trouble, Hindered plan files trouble) ∧
    (∀ summary, (run setting plan files).result = .ok summary →
      ∃ paths : List Path, summary.records.map Record.filepath = paths.map Path.text
        ∧ ∀ path, path ∈ paths ↔ path ∈ (files.entriesBelow plan.root).map Prod.fst
          ∧ files.isFile path = .ok true ∧ Discovery.hasSuffix suffix path = true) ∧
    ∀ directory, files.Stationed → plan.imageDirectory? = some directory →
      (∀ trouble, ¬Discovery.Barred files plan.root trouble) →
      ((∃ trouble, (run setting plan files).result = .error trouble)
        ↔ (files.makeDirectories directory).1.isDirectory directory ≠ .ok true) ∧
      (files.isFile directory = .ok true →
        (run setting plan files).result = .error (.file ⟨.alreadyExists, directory⟩)) := by
  intro plan
  refine ⟨fun trouble => hindered_of_run, ⟨?_, ?_⟩, fun summary hRun => ?_,
    fun directory hHere hPlan hOpen => ?_⟩
  · rintro ⟨trouble, hRun⟩
    exact ⟨trouble, hindered_of_run hRun⟩
  · rintro ⟨trouble, hHindered⟩
    exact hHindered.run setting
  · obtain ⟨paths, hSources, hRecords⟩ := filepaths_of_run hRun
    exact ⟨paths, hRecords, fun path => Discovery.mem_sources_iff hSources⟩
  · have hNormal : directory.Normal :=
      (Plan.normal_asked root mode suffix output scale).directory directory hPlan
    obtain ⟨-, hMade⟩ := FileSystem.makeDirectories_eq_none_iff hHere hNormal
    refine ⟨⟨?_, fun hNone => ?_⟩, fun hFile => ?_⟩
    · rintro ⟨trouble, hRun⟩
      cases hindered_of_run hRun with
      | barred hBarred => exact absurd hBarred (hOpen trouble)
      | noDirectory _ hOther hFailed =>
          obtain rfl := Option.some.inj (hOther.symm.trans hPlan)
          exact fun hDirectory => by simp [hMade.mpr hDirectory] at hFailed
    · obtain ⟨failure, hFailed⟩ := Option.ne_none_iff_exists'.mp (mt hMade.mp hNone)
      exact ⟨_, run_of_no_directory_made hOpen hPlan hFailed⟩
    · exact run_of_no_directory_made hOpen hPlan
        (FileSystem.makeDirectories_of_file hHere hNormal hFile)

theorem run_error_iff_of_file :
    let files : FileSystem := ⟨.directory [("repo", .directory []), ("f", .file [0x78])], []⟩
    let plan := Plan.asked "repo" .images ".py" (some "f") (.real Image.defaultScale)
    (∀ trouble, ¬Discovery.Barred files plan.root trouble)
      ∧ (run mirror plan files).result = .error (.file ⟨.alreadyExists, .ofString "f"⟩) := by
  intro files plan
  have hHere : files.Stationed := rfl
  have hOpen (trouble : Trouble) : ¬Discovery.Barred files plan.root trouble := fun hBarred => by
    have hSources : (Discovery.sources files plan.root ".py").toBool = true := by decide +kernel
    obtain ⟨other, hOther⟩ := hBarred.sources ".py"
    simp [hOther, Except.toBool] at hSources
  refine ⟨hOpen, ?_⟩
  obtain ⟨-, -, -, hDirectory⟩ :=
    run_error_iff mirror "repo" .images ".py" (some "f") (.real Image.defaultScale) files
  exact (hDirectory (.ofString "f") hHere rfl hOpen).2 (by decide +kernel)

end Survey

end SyntaxSurvey
