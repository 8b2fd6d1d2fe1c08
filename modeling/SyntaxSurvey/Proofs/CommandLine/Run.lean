import SyntaxSurvey.CommandLine.Run
import SyntaxSurvey.Proofs.CommandLine.Arguments
import SyntaxSurvey.Proofs.Report.Saving
import SyntaxSurvey.Proofs.Survey.Account
import SyntaxSurvey.Proofs.Survey.Failure
import SyntaxSurvey.Proofs.Survey.Retention

/-! How a run of the program ends. Whether it is stopped is decided by its arguments, by the file for
the log, by what hinders the survey and by the file for the report. In directory trees whose names
are texts and where everything is permitted, nothing else decides it; what was there before is still
there. -/

namespace SyntaxSurvey

open FileSystem (Retains Stationed)

namespace CommandLine

variable {situation : Situation} {a : Arguments} {files : FileSystem}

theorem absolute_eq {later : FileSystem} (hHere : later.here = files.here) (path : Path) :
    later.absolute path = files.absolute path := by
  rw [FileSystem.absolute, FileSystem.absolute, FileSystem.start, FileSystem.start, hHere]

/-- The file for the log is there, in a directory that is there as well, if there is to be one. -/
structure LogThere (a : Arguments) (files : FileSystem) : Prop where
  given : a.options.logFile ≠ .emptied
  directory : ∀ path, a.options.logFile = .value path → files.isDirectory path.parent = .ok true
  file : ∀ path, a.options.logFile = .value path → files.isFile (files.absolute path) = .ok true

/-- Opening the log is providing its file, to which nothing is added yet. -/
theorem openLog_eq {path : Path} (hHere : files.Stationed) (hPath : path.Normal)
    (hLog : a.options.logFile = .value path) :
    openLog a files =
      ((files.provide path.parent (files.absolute path) (· ++ [])).1,
        (files.provide path.parent (files.absolute path) (· ++ [])).2.map .file) := by
  have hRetains := (FileSystem.makeDirectories_eq_none_iff hHere hPath.parent).1
  rw [openLog, hLog, FileSystem.provide]
  dsimp only
  cases hMake : files.makeDirectories path.parent with
  | mk made failed =>
      rw [hMake] at hRetains
      cases failed with
      | some failure => rfl
      | none =>
          dsimp only
          rw [absolute_eq hRetains.here, FileSystem.append]
          cases made.update (files.absolute path) (· ++ []) with
          | error failure => rfl
          | ok later => rfl

/-- Opening the log keeps what was there, and it fails exactly if its file is not there
afterwards. -/
theorem openLog_spec (hHere : files.Stationed) (hNormal : a.Normal) :
    files.Retains (openLog a files).1
      ∧ ((openLog a files).2 = none ↔ LogThere a (openLog a files).1)
      ∧ ∀ trouble, (openLog a files).2 = some trouble →
        trouble = .valueMissing .path ∨ ∃ failure, trouble = .file failure := by
  cases hLog : a.options.logFile with
  | nothing =>
      have hOpen : openLog a files = (files, none) := by rw [openLog, hLog]
      rw [hOpen]
      have hThere : LogThere a files := ⟨by simp [hLog], by simp [hLog], by simp [hLog]⟩
      exact ⟨.refl files, by simp [hThere], by simp⟩
  | emptied =>
      have hOpen : openLog a files = (files, some (.valueMissing .path)) := by rw [openLog, hLog]
      rw [hOpen]
      exact ⟨.refl files, ⟨by simp, fun h => absurd hLog h.given⟩, by simp⟩
  | value path =>
      have hPath := hNormal.options.logFile path hLog
      have hProvided := FileSystem.provided hHere hPath.parent (files.absolute path) (· ++ [])
      rw [openLog_eq hHere hPath hLog]
      generalize files.provide path.parent (files.absolute path) (· ++ []) = provided at hProvided ⊢
      obtain ⟨later, failed⟩ := provided
      have hAbsolute : later.absolute path = files.absolute path :=
        absolute_eq hProvided.retains.here path
      refine ⟨hProvided.retains, ?_, ?_⟩
      · dsimp only
        rw [Option.map_eq_none_iff, hProvided.none_iff]
        constructor
        · rintro ⟨hDirectory, hFile⟩
          refine ⟨by simp [hLog], fun other hOther => ?_, fun other hOther => ?_⟩
          · cases hLog.symm.trans hOther
            exact hDirectory
          · cases hLog.symm.trans hOther
            rwa [hAbsolute]
        · intro h
          have hFile := h.file path hLog
          rw [hAbsolute] at hFile
          exact ⟨h.directory path hLog, hFile⟩
      · intro trouble hTrouble
        obtain ⟨failure, -, rfl⟩ := Option.map_eq_some_iff.mp hTrouble
        exact Or.inr ⟨failure, rfl⟩

/-- Adding the log to its file, which is there, makes no other file. -/
theorem closeLog_spec (hHere : files.Stationed) (hLog : LogThere a files) (log : Log) :
    files.Retains (closeLog a log files) ∧ (closeLog a log files).Retains files := by
  rw [closeLog]
  cases hGiven : a.options.logFile with
  | nothing => exact ⟨.refl files, .refl files⟩
  | emptied => exact ⟨.refl files, .refl files⟩
  | value path =>
      dsimp only [Given.value?]
      rw [FileSystem.append]
      cases hUpdate : files.update (files.absolute path)
          (· ++ Text.Utf8.encode (log.flatMap fun event => event.line.toList)) with
      | error failure => exact ⟨.refl files, .refl files⟩
      | ok later =>
          exact ⟨FileSystem.retains_update hHere hUpdate,
            FileSystem.retained_of_update hHere hUpdate (hLog.file path hGiven)⟩

/-- A log that is there remains there. -/
theorem LogThere.retained {later : FileSystem} (h : LogThere a files)
    (hRetains : files.Retains later) : LogThere a later where
  given := h.given
  directory path hLog := hRetains.isDirectory (h.directory path hLog)
  file path hLog := by
    rw [absolute_eq hRetains.here]
    exact hRetains.isFile (h.file path hLog)

/-- How a run goes on once its log is open, and what it leaves. -/
inductive Performed (a : Arguments) (opened : FileSystem) : Exit → FileSystem → Prop where
  /-- There is a file, and its name cannot be compared with the suffix. -/
  | suffixTaken (hSuffix : needsSuffix a opened = true) :
      Performed a opened (.broken (.valueMissing .suffix)) opened
  | hindered {trouble : Trouble} {later : FileSystem} (hSuffix : needsSuffix a opened = false)
      (hHindered : Survey.Hindered a.plan opened trouble) (hOfFiles : trouble.isOfFiles = true)
      (hRetains : opened.Retains later) : Performed a opened (.done 1) later
  /-- The directory for images cannot be a path at all. -/
  | refused {failure : FileSystem.Failure} {later : FileSystem}
      (hSuffix : needsSuffix a opened = false)
      (hHindered : Survey.Hindered a.plan opened (.file failure))
      (hOther : (Trouble.file failure).isOfFiles = false) (hRetains : opened.Retains later) :
      Performed a opened (.broken (.file failure)) later
  | finished {later : FileSystem} (hSuffix : needsSuffix a opened = false)
      (hFree : ∀ trouble, ¬Survey.Hindered a.plan opened trouble)
      (hReport : a.options.report = .nothing) (hRetains : opened.Retains later) :
      Performed a opened (.done 0) later
  | reportTaken {later : FileSystem} (hSuffix : needsSuffix a opened = false)
      (hFree : ∀ trouble, ¬Survey.Hindered a.plan opened trouble)
      (hReport : a.options.report = .emptied) (hRetains : opened.Retains later) :
      Performed a opened (.broken (.valueMissing .path)) later
  | reported {path : Path} {later : FileSystem} (hSuffix : needsSuffix a opened = false)
      (hFree : ∀ trouble, ¬Survey.Hindered a.plan opened trouble)
      (hReport : a.options.report = .value path) (hFile : later.isFile path = .ok true)
      (hRetains : opened.Retains later) : Performed a opened (.done 0) later
  | unreported {path : Path} {failure : FileSystem.Failure} {later : FileSystem}
      (hSuffix : needsSuffix a opened = false)
      (hFree : ∀ trouble, ¬Survey.Hindered a.plan opened trouble)
      (hReport : a.options.report = .value path) (hFile : later.isFile path ≠ .ok true)
      (hRetains : opened.Retains later) : Performed a opened (.broken (.file failure)) later

/-- Whatever the program does, what was there before stays. -/
theorem Performed.retains {opened later : FileSystem} {exit : Exit}
    (h : Performed a opened exit later) : opened.Retains later := by
  cases h with
  | suffixTaken => exact .refl opened
  | hindered _ _ _ hRetains => exact hRetains
  | refused _ _ _ hRetains => exact hRetains
  | finished _ _ _ hRetains => exact hRetains
  | reportTaken _ _ _ hRetains => exact hRetains
  | reported _ _ _ _ hRetains => exact hRetains
  | unreported _ _ _ _ hRetains => exact hRetains

/-- After a survey that ended with coherent records, only the report can be in the way. -/
theorem performed_conclude {opened surveyed : FileSystem} (hSuffix : needsSuffix a opened = false)
    (hFree : ∀ trouble, ¬Survey.Hindered a.plan opened trouble) (hNormal : a.Normal)
    (hHere : opened.Stationed) (hRetains : opened.Retains surveyed) {summary : Summary}
    (hCoherent : ∀ record ∈ summary.records, record.Coherent) (log : Log) :
    Performed a opened (conclude situation a summary log surveyed).exit
      (conclude situation a summary log surveyed).files := by
  have hAccount := Summary.account_eq_none a.plan.imageDirectory? hCoherent
  rw [conclude]
  generalize summary.account a.plan.imageDirectory? = account at hAccount ⊢
  obtain ⟨told, trouble⟩ := account
  obtain rfl : trouble = none := hAccount
  dsimp only
  cases hReport : a.options.report with
  | nothing => exact .finished hSuffix hFree hReport hRetains
  | emptied => exact .reportTaken hSuffix hFree hReport hRetains
  | value path =>
      have hStays := hRetains.stationed hHere
      have hPath := hNormal.options.report path hReport
      dsimp only
      rw [Report.save_map_ofString]
      generalize Text.Utf8.encode _ = bytes
      have hProvided := FileSystem.provided hStays hPath.parent path fun _ => bytes
      generalize surveyed.provide path.parent path (fun _ => bytes) = provided at hProvided ⊢
      obtain ⟨later, failed⟩ := provided
      have hLater := hRetains.trans hProvided.retains
      cases failed with
      | none => exact .reported hSuffix hFree hReport (hProvided.none_iff.mp rfl).2 hLater
      | some failure =>
          refine .unreported hSuffix hFree hReport (fun hFile => ?_) hLater
          have hParent := FileSystem.isDirectory_parent (hLater.stationed hHere) hFile
          simpa using hProvided.none_iff.mpr ⟨hParent, hFile⟩

/-- Every run that has its log goes one of the ways that are told apart. -/
theorem performed (situation : Situation) {opened : FileSystem} (hHere : opened.Stationed)
    (hNormal : a.Normal) :
    Performed a opened (perform situation a opened).exit (perform situation a opened).files := by
  rw [perform]
  cases hSuffix : needsSuffix a opened with
  | true => exact .suffixTaken hSuffix
  | false =>
      have hRetains := Survey.retains_run situation.toSetting a.plan hHere hNormal.plan.directory
      simp only [Bool.false_eq_true, if_false]
      cases hRun : (Survey.run situation.toSetting a.plan opened).result with
      | ok summary =>
          have hFree (trouble : Trouble) : ¬Survey.Hindered a.plan opened trouble := by
            intro hHindered
            obtain ⟨other, hOther⟩ := hHindered.run situation.toSetting
            simp [hRun] at hOther
          exact performed_conclude hSuffix hFree hNormal hHere hRetains (Survey.coherent_of_run hRun)
            _
      | error trouble =>
          have hHindered := Survey.hindered_of_run hRun
          dsimp only
          cases hOfFiles : trouble.isOfFiles with
          | true =>
              rw [if_pos rfl]
              exact .hindered hSuffix hHindered hOfFiles hRetains
          | false =>
              obtain ⟨failure, rfl⟩ : ∃ failure, trouble = .file failure := by
                cases hHindered with
                | barred hBarred => simp [Survey.isOfFiles_of_barred hBarred] at hOfFiles
                | noDirectory => exact ⟨_, rfl⟩
              rw [if_neg (by simp)]
              exact .refused hSuffix hHindered hOfFiles hRetains

/-- A run that could open its log. -/
theorem run_of_logThere (situation : Situation) {texts : List String} (hHere : files.Stationed)
    (hRead : Arguments.read texts = .ok a) (hNormal : a.Normal)
    (hLog : LogThere a (openLog a files).1) :
    ∃ later, Performed a (openLog a files).1 (run situation texts files).exit later
      ∧ later.Retains (run situation texts files).files
      ∧ (run situation texts files).files.Retains later := by
  obtain ⟨hRetains, hOpen, -⟩ := openLog_spec hHere hNormal
  have hOpened := hRetains.stationed hHere
  have hPerformed := performed situation hOpened hNormal
  have hNone := hOpen.mpr hLog
  simp only [run, hRead]
  generalize openLog a files = opening at hOpened hLog hPerformed hNone ⊢
  obtain ⟨opened, trouble⟩ := opening
  obtain rfl : trouble = none := hNone
  have hThere := hLog.retained hPerformed.retains
  exact ⟨_, hPerformed, closeLog_spec (hPerformed.retains.stationed hOpened) hThere _⟩

/-- A run that could not open its log breaks off. -/
theorem run_of_not_logThere (situation : Situation) {texts : List String} (hHere : files.Stationed)
    (hRead : Arguments.read texts = .ok a) (hNormal : a.Normal)
    (hLog : ¬LogThere a (openLog a files).1) :
    ∃ trouble, run situation texts files = ⟨.broken trouble, [], (openLog a files).1⟩
      ∧ (trouble = .valueMissing .path ∨ ∃ failure, trouble = .file failure) := by
  obtain ⟨-, hOpen, hTrouble⟩ := openLog_spec hHere hNormal
  obtain ⟨trouble, hSome⟩ := Option.ne_none_iff_exists'.mp (mt hOpen.mp hLog)
  refine ⟨trouble, ?_, hTrouble trouble hSome⟩
  simp only [run, hRead]
  generalize openLog a files = opening at hSome ⊢
  obtain ⟨opened, other⟩ := opening
  obtain rfl : other = some trouble := hSome
  rfl

/-- The status is one exactly if the survey is hindered by files. -/
theorem Performed.done_one_iff {opened later : FileSystem} {exit : Exit}
    (h : Performed a opened exit later) :
    exit = .done 1 ↔ needsSuffix a opened = false
      ∧ ∃ trouble, Survey.Hindered a.plan opened trouble ∧ trouble.isOfFiles = true := by
  cases h with
  | suffixTaken hSuffix => simp [Exit.broken, hSuffix]
  | hindered hSuffix hHindered hOfFiles =>
      exact ⟨fun _ => ⟨hSuffix, _, hHindered, hOfFiles⟩, fun _ => rfl⟩
  | refused hSuffix hHindered hOther =>
      refine ⟨fun hExit => by simp [Exit.broken] at hExit, ?_⟩
      rintro ⟨-, trouble, hTrouble, hOfFiles⟩
      rw [hTrouble.isOfFiles_eq hHindered, hOther] at hOfFiles
      cases hOfFiles
  | finished _ hFree => simp [hFree]
  | reportTaken _ hFree => simp [Exit.broken, hFree]
  | reported _ hFree => simp [hFree]
  | unreported _ hFree => simp [Exit.broken, hFree]

/-- The status is zero exactly if nothing hinders the survey and the report that was asked for is
there. -/
theorem Performed.done_zero_iff {opened later : FileSystem} {exit : Exit}
    (h : Performed a opened exit later) :
    exit = .done 0 ↔ needsSuffix a opened = false
      ∧ (∀ trouble, ¬Survey.Hindered a.plan opened trouble) ∧ a.options.report ≠ .emptied
      ∧ ∀ path, a.options.report = .value path → later.isFile path = .ok true := by
  cases h with
  | suffixTaken hSuffix => simp [Exit.broken, hSuffix]
  | @hindered trouble _ _ hHindered =>
      exact ⟨fun hExit => by simp at hExit, fun h => absurd hHindered (h.2.1 trouble)⟩
  | refused _ hHindered =>
      exact ⟨fun hExit => by simp [Exit.broken] at hExit, fun h => absurd hHindered (h.2.1 _)⟩
  | finished hSuffix hFree hReport => simp [hSuffix, hFree, hReport]
  | reportTaken _ _ hReport => simp [Exit.broken, hReport]
  | reported hSuffix hFree hReport hFile => simp [hSuffix, hFree, hReport, hFile]
  | unreported _ _ hReport hFile => simp [Exit.broken, hReport, hFile]

/-- A run ends with zero or one, or it breaks off for a value that was taken away or a file. -/
theorem Performed.exit_cases {opened later : FileSystem} {exit : Exit}
    (h : Performed a opened exit later) :
    exit = .done 0 ∨ exit = .done 1 ∨ ∃ trouble, exit = .broken trouble
      ∧ ((∃ need, trouble = .valueMissing need) ∨ ∃ failure, trouble = .file failure) := by
  cases h with
  | suffixTaken => exact Or.inr (Or.inr ⟨_, rfl, Or.inl ⟨_, rfl⟩⟩)
  | hindered => exact Or.inr (Or.inl rfl)
  | refused => exact Or.inr (Or.inr ⟨_, rfl, Or.inr ⟨_, rfl⟩⟩)
  | finished => exact Or.inl rfl
  | reportTaken => exact Or.inr (Or.inr ⟨_, rfl, Or.inl ⟨_, rfl⟩⟩)
  | reported => exact Or.inl rfl
  | unreported => exact Or.inr (Or.inr ⟨_, rfl, Or.inr ⟨_, rfl⟩⟩)

/-- How the program ends in a directory tree of this library: names are texts, and everything is
permitted. Help and complaints end it before anything is done. Otherwise what was there before stays,
and the status is one or zero or the program breaks off: the status is one exactly if the log could
be opened and the survey is hindered by the file system, whether by its root or by the directory for
images; it is zero exactly if the log could be opened, nothing hinders the survey and the report that
was asked for is there. In such a tree nothing but files that cannot be made and flags whose values
were taken away makes the program break off. A name that is no text would do so as well, since a
report with it cannot be encoded, and so would a file that may not be written. -/
theorem exit_iff (situation : Situation) (texts : List String) {files : FileSystem}
    (hHere : files.Stationed) :
    (∀ stop, Arguments.read texts = .error stop →
      run situation texts files = ⟨.stopped stop, [], files⟩
        ∧ (stop.IsOrderly ∨ stop = .broken (.valueMissing .scale))) ∧
    ∀ a, Arguments.read texts = .ok a →
      let opened := (openLog a files).1
      let ending := run situation texts files
      files.Retains ending.files ∧
      (ending.exit = .done 1 ↔ LogThere a opened ∧ needsSuffix a opened = false
        ∧ ∃ trouble, Survey.Hindered a.plan opened trouble ∧ trouble.isOfFiles = true) ∧
      (ending.exit = .done 0 ↔ LogThere a opened ∧ needsSuffix a opened = false
        ∧ (∀ trouble, ¬Survey.Hindered a.plan opened trouble) ∧ a.options.report ≠ .emptied
        ∧ ∀ path, a.options.report = .value path → ending.files.isFile path = .ok true) ∧
      (ending.exit = .done 0 ∨ ending.exit = .done 1 ∨ ∃ trouble, ending.exit = .broken trouble
        ∧ ((∃ need, trouble = .valueMissing need) ∨ ∃ failure, trouble = .file failure)) := by
  refine ⟨fun stop hRead => ⟨by rw [run, hRead], ?_⟩, fun a hRead => ?_⟩
  · rcases Arguments.read_cases texts with hOrderly | hScale
    · rw [hRead] at hOrderly
      cases hOrderly with
      | stopped hStop => exact Or.inl hStop
    · rw [hRead, Except.error.injEq] at hScale
      exact Or.inr hScale
  · have hNormal : a.Normal := by
      rcases Arguments.read_cases texts with hOrderly | hScale
      · exact (hRead ▸ hOrderly).value
      · simp [hRead] at hScale
    have hOpened := (openLog_spec hHere hNormal).1
    by_cases hLog : LogThere a (openLog a files).1
    · obtain ⟨later, hPerformed, hForth, hBack⟩ :=
        run_of_logThere situation hHere hRead hNormal hLog
      have hSame (path : Path) : (run situation texts files).files.isFile path = .ok true
          ↔ later.isFile path = .ok true := ⟨hBack.isFile, hForth.isFile⟩
      refine ⟨hOpened.trans (hPerformed.retains.trans hForth), ?_, ?_, hPerformed.exit_cases⟩
      · rw [hPerformed.done_one_iff]
        exact ⟨fun h => ⟨hLog, h⟩, fun h => h.2⟩
      · simp only [hSame]
        rw [hPerformed.done_zero_iff]
        exact ⟨fun h => ⟨hLog, h⟩, fun h => h.2⟩
    · obtain ⟨trouble, hRun, hTrouble⟩ :=
        run_of_not_logThere situation hHere hRead hNormal hLog
      rw [hRun]
      refine ⟨hOpened, by simp [Exit.broken, hLog], by simp [Exit.broken, hLog],
        Or.inr (Or.inr ⟨trouble, rfl, ?_⟩)⟩
      rcases hTrouble with rfl | hFailure
      · exact Or.inl ⟨_, rfl⟩
      · exact Or.inr hFailure

theorem exit_iff_of_file :
    let situation : Situation := { Survey.mirror with instant := "", whole := ⟨0⟩ }
    let texts := ["repo", "images", "--output-dir", "f"]
    let files : FileSystem := ⟨.directory [("repo", .directory []), ("f", .file [0x78])], []⟩
    ∃ a trouble, Arguments.read texts = .ok a ∧ Survey.Hindered a.plan (openLog a files).1 trouble
      ∧ (run situation texts files).exit = .done 1 := by
  intro situation texts files
  have hHere : files.Stationed := rfl
  have hExit : (run situation texts files).exit = .done 1 := by decide +kernel
  obtain ⟨hStopped, hAccepted⟩ := exit_iff situation texts hHere
  cases hRead : Arguments.read texts with
  | error stop =>
      obtain ⟨hRun, -⟩ := hStopped stop hRead
      simp [hRun] at hExit
  | ok a =>
      obtain ⟨-, hOne, -, -⟩ := hAccepted a hRead
      obtain ⟨-, -, trouble, hHindered, -⟩ := hOne.mp hExit
      exact ⟨a, trouble, rfl, hHindered, hExit⟩

end CommandLine

end SyntaxSurvey
