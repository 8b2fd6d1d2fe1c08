import SyntaxSurvey.Proofs.Discovery.Listing
import SyntaxSurvey.Proofs.Survey.Refinement
import SyntaxSurvey.Proofs.Survey.Untimed

/-! Surveys that are repeated. A survey that draws the sources below a root into a directory outside
of it leaves a file system in which it comes to the same again and changes nothing. Only a directory
that it made on the way can keep the repetition from its sources: one that stands below the root and
whose path from there is too long. -/

namespace SyntaxSurvey

open FileSystem (Entry Location Steady)
open Number (Quantity)

namespace Survey

variable {setting other : Setting} {plan : Plan} {directory : Path} {files made left : FileSystem}
  {place : Location} {paths done : List Path} {path : Path} {s t : Survey}

/-- The turn of a source writes its rendition into the directory if it comes to an image, and nothing
otherwise. -/
theorem Settled.kind?_saving (hSite : Site plan directory place made)
    (h : Settled setting plan directory place made done s) (hClear : Clear plan place made path)
    (goal : Location) :
    (s.saving setting plan directory path).files.root.kind? goal
      = match (s.saving setting plan directory path).path, rendition? setting plan s.files path with
        | some _, some bytes =>
          if goal = place ++ [Image.nameFor path plan.suffix] then some (.file bytes)
          else s.files.root.kind? goal
        | _, _ => s.files.root.kind? goal := by
  obtain ⟨hPath, hFiles, -⟩ | ⟨tree, bytes, hTree, hDrawing, hPath, -, hWrite⟩ :=
    saving_outcome s hClear.normal
  · rw [hPath, hFiles]
  · have hRendition : rendition? setting plan s.files path = some bytes := by
      rw [rendition?, hTree]
      exact hDrawing
    obtain ⟨entries, hFind⟩ := hSite.found
    obtain ⟨inner, hNow⟩ := h.steady.find_directory hSite.plain hSite.normal hFind
    obtain ⟨-, -, -, hPut⟩ := FileSystem.write_child_ok h.steady.plain hSite.normal
      (Image.isName_nameFor hClear.isName hClear.hasSuffix) hNow hWrite
    rw [hPath, hRendition]
    exact hPut goal

/-- A survey in the tracks of another one. At every place stands what the other one has put there by
now, or what it has left there in the end. -/
structure Repeats (left : FileSystem) (s t : Survey) : Prop extends Alike s t where
  kept : ∀ goal, t.files.root.kind? goal = s.files.root.kind? goal
    ∨ t.files.root.kind? goal = left.root.kind? goal

/-- The turn of a source that stands where it stood, drawn into the directory as it was left, repeats
the turn before. -/
theorem Repeats.step (h : Repeats left s t) (hTable : other.table = setting.table)
    (hRenderer : other.renderer = setting.renderer) (hSite : Site plan directory place made)
    (hAgain : Site plan directory place left) (hSteady : Steady place made left)
    (hSettled : Settled setting plan directory place made done s)
    (hSettledAgain : Settled other plan directory place left done t)
    (hClear : Clear plan place made path) (hClearAgain : Clear plan place left path) :
    Repeats left (s.visit setting plan path) (t.visit other plan path) := by
  obtain ⟨goal, content, hFile⟩ := hClear.isFile
  obtain ⟨entries, hFind⟩ := hSite.found
  obtain ⟨inner, hFindAgain⟩ := hAgain.found
  have hApart := hClear.apart goal _ hFile
  have hFileAgain := hSteady.find_file hSite.plain hClear.normal hFile hApart
  have hRead : t.files.read path = s.files.read path := by
    rw [hSettledAgain.steady.read_eq hAgain.plain hClear.normal hFileAgain hApart,
      hSettled.steady.read_eq hSite.plain hClear.normal hFile hApart,
      hSteady.read_eq hSite.plain hClear.normal hFile hApart]
  have hTree := (reading_alike hTable hRead).1
  have hTrouble : trouble? other plan directory t.files path
      = trouble? setting plan directory s.files path := by
    obtain ⟨now, hNow⟩ := hSettled.steady.find_directory hSite.plain hSite.normal hFind
    obtain ⟨later, hLater⟩ :=
      hSettledAgain.steady.find_directory hAgain.plain hSite.normal hFindAgain
    refine trouble?_congr hRenderer hTree hSettled.steady.plain hSettledAgain.steady.plain
      hSite.normal (Image.isName_nameFor hClear.isName hClear.hasSuffix) hNow hLater ?_
    rw [hSettled.steady.directories, hSettledAgain.steady.directories, hSteady.directories]
  refine ⟨h.toAlike.visit hSite.plan hTable hClear.normal hRead hTrouble, fun goal => ?_⟩
  have hPath : (t.saving other plan directory path).path
      = (s.saving setting plan directory path).path :=
    saving_path_alike hTable hClear.normal hRead hTrouble
  have hRendition : rendition? other plan t.files path = rendition? setting plan s.files path := by
    rw [rendition?, rendition?, ← reading, ← reading, hTree, hRenderer]
  rw [visit_files hSite.plan, visit_files hSite.plan, hSettled.kind?_saving hSite hClear,
    hSettledAgain.kind?_saving hAgain hClearAgain, hPath, hRendition]
  split
  · split
    · exact Or.inl rfl
    · exact h.kept goal
  · exact h.kept goal

/-- A directory below a root that a survey has made, and that cannot be looked up from the root. -/
structure Astray (root : Path) (files left : FileSystem) (names : List String) : Prop where
  fresh : files.root.kind? ((files.absolute root).parts ++ names) = none
  made : left.root.kind? ((files.absolute root).parts ++ names) = some .directory
  unasked : left.find (root.below names) = .error .nameTooLong

namespace Opened

variable (h : Opened plan directory files paths made)
  (hSteady : Steady (files.absolute directory).parts made left)

include h

theorem kind?_root :
    files.root.kind? (files.absolute plan.root).parts = some .directory := by
  obtain ⟨entries, hFind⟩ := Discovery.find_of_sources h.plain h.normal.root h.sources
  have hLeads := ((FileSystem.findFor_eq_present_iff h.plain h.normal.root).mp hFind).2
  exact Entry.kind?_eq_directory.mpr ⟨entries, hLeads.at?⟩

include hSteady

/-- The root is found again. -/
theorem find_root : ∃ entries, left.find plan.root
    = .ok (.present (files.absolute plan.root).parts (.directory entries)) := by
  obtain ⟨hMade, -⟩ := h.made_site
  obtain ⟨entries, hFind⟩ := Discovery.find_of_sources h.plain h.normal.root h.sources
  obtain ⟨found, hFound, hKind⟩ := FileSystem.find_keep h.plain hMade.plain hMade.here hMade.kept
    h.normal.root hFind
  cases found with
  | file content => cases hKind
  | link target => cases hKind
  | directory inner => exact hSteady.find_directory hMade.plain h.normal.root hFound

theorem isDirectory_left : left.isDirectory directory = .ok true := by
  obtain ⟨hMade, hSite⟩ := h.made_site
  obtain ⟨entries, hFind⟩ := hSite.found
  obtain ⟨inner, hInner⟩ := hSteady.find_directory hMade.plain hSite.normal hFind
  exact FileSystem.isDirectory_eq_true.mpr ⟨_, inner, hInner⟩

/-- The path of a directory below the root is in the way exactly if the directory cannot be looked
up. -/
theorem obstacle?_iff {names : List String}
    (hKind : left.root.kind? ((files.absolute plan.root).parts ++ names) = some .directory) :
    FileSystem.obstacle? plan.root names = some .nameTooLong
      ↔ left.find (plan.root.below names) = .error .nameTooLong := by
  obtain ⟨inner, hFind⟩ := h.find_root hSteady
  obtain ⟨found, hAt⟩ := Entry.kind?_eq_directory.mp hKind
  rw [FileSystem.find_below hSteady.plain h.normal.root hFind hAt]
  cases FileSystem.obstacle? plan.root names <;> simp

/-- Sources are not found again if a directory that was made cannot be looked up; the root itself has
been there before. -/
theorem sources_of_astray {names : List String} (hAstray : Astray plan.root files left names) :
    ∃ trouble, Discovery.sources left plan.root plan.suffix = .error trouble := by
  obtain ⟨inner, hFindAgain⟩ := h.find_root hSteady
  refine Discovery.sources_of_overlong hSteady.plain h.normal.root hFindAgain ?_
    (by simp [hAstray.made]) ((h.obstacle?_iff hSteady hAstray.made).mpr hAstray.unasked) plan.suffix
  rintro rfl
  have hFresh := hAstray.fresh
  rw [List.append_nil, h.kind?_root] at hFresh
  cases hFresh

variable (hOutside : ¬(files.absolute plan.root).parts <+: (files.absolute directory).parts)

include hOutside

/-- Below the root everything is as it was, but that directories on the way to the one for images may
have been made there. -/
theorem kind?_below (names : List String) :
    left.root.kind? ((files.absolute plan.root).parts ++ names)
        = files.root.kind? ((files.absolute plan.root).parts ++ names)
      ∨ files.root.kind? ((files.absolute plan.root).parts ++ names) = none
        ∧ left.root.kind? ((files.absolute plan.root).parts ++ names) = some .directory
        ∧ ∃ depth, (files.absolute plan.root).parts ++ names
          = (files.absolute ⟨directory.anchor, directory.parts.take depth⟩).parts := by
  obtain ⟨hMade, -⟩ := h.made_site
  have hMadeKind : left.root.kind? ((files.absolute plan.root).parts ++ names)
      = made.root.kind? ((files.absolute plan.root).parts ++ names) := by
    rcases List.eq_nil_or_concat names with rfl | ⟨init, last, rfl⟩
    · have hRoot := hMade.kept _ _ h.kind?_root
      rw [List.append_nil, hRoot, hSteady.directories, hRoot]
    · refine hSteady.apart _ fun name hName => hOutside ?_
      rw [List.concat_eq_append, ← List.append_assoc] at hName
      exact ⟨init, (List.append_inj' hName rfl).1⟩
  rw [hMadeKind]
  cases hBefore : files.root.kind? ((files.absolute plan.root).parts ++ names) with
  | some kind => exact Or.inl (hMade.kept _ kind hBefore)
  | none =>
      rcases hMade.added _ hBefore with hNone | ⟨hDirectory, depth, -, hPlace⟩
      · exact Or.inl hNone
      · exact Or.inr ⟨rfl, hDirectory, depth, hPlace⟩

/-- The same sources are found again, if any are. -/
theorem sources_again {others : List Path}
    (hSources : Discovery.sources left plan.root plan.suffix = .ok others) : others = paths := by
  obtain ⟨entries, hFind⟩ := Discovery.find_of_sources h.plain h.normal.root h.sources
  obtain ⟨inner, hFindAgain⟩ := h.find_root hSteady
  refine Discovery.sources_congr h.plain hSteady.plain h.normal.root hFind hFindAgain
    (fun names content => ?_) h.sources hSources
  rcases h.kind?_below hSteady hOutside names with hSame | ⟨hNone, hDirectory, -⟩
  · rw [hSame]
  · simp [hNone, hDirectory]

/-- What keeps a survey from finding its sources again is a directory that it has made. -/
theorem astray_of_sources {trouble : Trouble}
    (hSources : Discovery.sources left plan.root plan.suffix = .error trouble) :
    ∃ names, Astray plan.root files left names
      ∧ trouble = .file ⟨.nameTooLong, plan.root.below names⟩ := by
  obtain ⟨entries, hFind⟩ := Discovery.find_of_sources h.plain h.normal.root h.sources
  obtain ⟨inner, hFindAgain⟩ := h.find_root hSteady
  obtain ⟨names, hSome, hKind, hObstacle, hTrouble⟩ :=
    Discovery.exists_overlong_of_sources hSteady.plain h.normal.root hFindAgain hSources
  have hFresh : files.root.kind? ((files.absolute plan.root).parts ++ names) = none := by
    by_contra hStood
    obtain ⟨other, hError⟩ := Discovery.sources_of_overlong h.plain h.normal.root hFind hSome
      hStood hObstacle plan.suffix
    rw [h.sources] at hError
    cases hError
  rcases h.kind?_below hSteady hOutside names with hSame | ⟨-, hMade, -⟩
  · exact absurd (hSame.trans hFresh) hKind
  · exact ⟨names, ⟨hFresh, hMade, (h.obstacle?_iff hSteady hMade).mp hObstacle⟩, hTrouble⟩

/-- On the way of a path that never goes up no directory is made below the root. -/
theorem sources_of_no_parent (hWay : ".." ∉ directory.parts) :
    Discovery.sources left plan.root plan.suffix = .ok paths := by
  cases hSources : Discovery.sources left plan.root plan.suffix with
  | ok others => rw [h.sources_again hSteady hOutside hSources]
  | error trouble =>
      obtain ⟨names, hAstray, -⟩ := h.astray_of_sources hSteady hOutside hSources
      rcases h.kind?_below hSteady hOutside names with hSame | ⟨-, -, depth, hPlace⟩
      · have hMade := hAstray.made
        rw [hSame, hAstray.fresh] at hMade
        cases hMade
      · have hTake : (files.absolute plan.root).parts ++ names
            <+: (files.absolute directory).parts := by
          rw [hPlace]
          exact FileSystem.absolute_take_prefix hWay depth
        exact absurd ((List.prefix_append _ names).trans hTake) hOutside

end Opened

namespace Opened

variable (h : Opened plan directory files paths made)
  (hSteady : Steady (files.absolute directory).parts made left)

include h hSteady

theorem here_eq : left.here = files.here := by
  obtain ⟨hMade, -⟩ := h.made_site
  exact hSteady.here.trans hMade.here

/-- The directory for images need not be made again. -/
theorem makeDirectories_again (hHere : files.Stationed) :
    left.makeDirectories directory = (left, none) := by
  obtain ⟨hMade, -⟩ := h.made_site
  have hStationed : left.Stationed := by
    rw [FileSystem.Stationed, h.here_eq hSteady, hSteady.directories]
    exact hMade.kept _ _ hHere
  exact FileSystem.makeDirectories_of_directory hStationed (h.normal.directory directory h.planned)
    (h.isDirectory_left hSteady)

variable (hAgain : Opened plan directory left paths left)
  (hOutside : ¬(files.absolute plan.root).parts <+: (files.absolute directory).parts)

include hAgain hOutside

/-- Sources are still clear of the directory for images after the survey. -/
theorem clear_again (hPath : path ∈ paths) :
    Clear plan (files.absolute directory).parts left path := by
  have hAbsolute := FileSystem.absolute_congr (h.here_eq hSteady)
  rw [← hAbsolute, ← hAbsolute] at hOutside
  rw [← hAbsolute]
  exact hAgain.clear_of_outside hOutside hPath

/-- A second survey is settled turn by turn like the first one. -/
theorem settled_again (other : Setting) (count : Nat) :
    Settled other plan directory (files.absolute directory).parts left (paths.take count)
      ((opening plan directory left paths).visitAll other plan (paths.take count)) := by
  rw [← FileSystem.absolute_congr (h.here_eq hSteady)]
  refine hAgain.settled other count fun path hPath => ?_
  rw [FileSystem.absolute_congr (h.here_eq hSteady)]
  exact h.clear_again hSteady hAgain hOutside hPath

/-- After the same number of turns, the second survey repeats the first one. -/
theorem repeats (hTable : other.table = setting.table) (hRenderer : other.renderer = setting.renderer)
    (count : Nat) :
    Repeats left ((opening plan directory files paths).visitAll setting plan (paths.take count))
      ((opening plan directory left paths).visitAll other plan (paths.take count)) := by
  obtain ⟨-, hSite⟩ := h.made_site
  obtain ⟨-, hSiteAgain⟩ := hAgain.made_site
  rw [FileSystem.absolute_congr (h.here_eq hSteady)] at hSiteAgain
  induction count with
  | zero =>
      refine ⟨⟨rfl, rfl, rfl⟩, fun goal => Or.inr ?_⟩
      simp [visitAll, opening, begin, hAgain.make]
  | succ count ih =>
      have hSettled := h.settled setting count fun path => h.clear_of_outside hOutside
      have hSettledAgain := h.settled_again hSteady hAgain hOutside other count
      rw [List.take_add_one]
      cases hPath : paths[count]? with
      | none => simpa using ih
      | some path =>
          have hMem := List.mem_of_getElem? hPath
          simpa [visitAll] using ih.step hTable hRenderer hSite hSiteAgain hSteady hSettled
            hSettledAgain (h.clear_of_outside hOutside hMem)
            (h.clear_again hSteady hAgain hOutside hMem)

end Opened

/-- A survey that was repeated. What came of it the second time came of it the first time, but for how
long it took; and no file has changed the second time, however it ended. -/
structure Repeated (first second : Ending) : Prop where
  summary : ∀ summary again, first.result = .ok summary → second.result = .ok again →
    again.untimed = summary.untimed
  log : ∀ again, second.result = .ok again → second.log.untimed = first.log.untimed
  here : second.files.here = first.files.here
  files : ∀ place, second.files.root.kind? place = first.files.root.kind? place

/-- A survey that cannot find its sources ends at once. -/
theorem run_of_no_sources {trouble : Trouble}
    (hSources : Discovery.sources files plan.root plan.suffix = .error trouble) :
    run setting plan files = ⟨.error trouble, [], files⟩ := by
  rw [run, hSources]

/-- A survey that was opened visits its sources and gives its account. -/
theorem Opened.run_eq (h : Opened plan directory files paths made) :
    run setting plan files
      = let s := (opening plan directory files paths).visitAll setting plan paths
        ⟨.ok s.summary, s.log, s.files⟩ := by
  rw [run, h.sources]
  simp only [h.planned, h.make, complete, opening]

/-- A survey that finds its sources again is repeated. -/
theorem Opened.repeated (h : Opened plan directory files paths made)
    (hSteady : Steady (files.absolute directory).parts made left)
    (hLeft : ((opening plan directory files paths).visitAll setting plan paths).files = left)
    (hAgain : Opened plan directory left paths left)
    (hOutside : ¬(files.absolute plan.root).parts <+: (files.absolute directory).parts)
    (hTable : other.table = setting.table) (hRenderer : other.renderer = setting.renderer) :
    Repeated (run setting plan files) (run other plan left) := by
  have hRepeats := h.repeats hSteady hAgain hOutside hTable hRenderer paths.length
  rw [List.take_length] at hRepeats
  rw [h.run_eq, hAgain.run_eq]
  refine ⟨?_, fun _ _ => hRepeats.log, ?_, fun place => ?_⟩
  · rintro summary again hSummary hOk
    cases hSummary
    cases hOk
    exact hRepeats.summary
  · have hSettled := h.settled_again hSteady hAgain hOutside other paths.length
    rw [List.take_length] at hSettled
    exact hSettled.steady.here.trans (congrArg FileSystem.here hLeft.symm)
  · rcases hRepeats.kept place with hNow | hKept
    · exact hNow
    · exact hKept.trans (congrArg (fun last => last.root.kind? place) hLeft.symm)

/-- A survey that draws into a directory outside of the root, whatever that holds, comes to the same
when it is repeated, tells the same and changes no file. It ends without a summary then if and only
if it made a directory below the root whose path is too long to be looked up from there, which it
never does on the way of a path that does not go up. -/
theorem images_repeated {setting other : Setting} (hTable : other.table = setting.table)
    (hRenderer : other.renderer = setting.renderer) (root suffix : String) (output : Option String)
    (scale : Quantity) {files : FileSystem} {directory : Path} {summary : Summary}
    (hPlain : files.root.Plain) (hHere : files.Stationed)
    (hPlan : (Plan.asked root .images suffix output scale).imageDirectory? = some directory)
    (hOutside : ¬(files.absolute (.ofString root)).parts <+: (files.absolute directory).parts)
    (hRun : (run setting (Plan.asked root .images suffix output scale) files).result
      = .ok summary) :
    let plan := Plan.asked root .images suffix output scale
    let first := run setting plan files
    let second := run other plan first.files
    Repeated first second
      ∧ (∀ trouble, second.result = .error trouble →
        ∃ names, Astray plan.root files first.files names
          ∧ trouble = .file ⟨.nameTooLong, plan.root.below names⟩)
      ∧ (∀ names, Astray plan.root files first.files names →
        ∃ trouble, second.result = .error trouble)
      ∧ (".." ∉ directory.parts → ∃ again, second.result = .ok again) := by
  intro plan first second
  have hNormal : plan.Normal := Plan.normal_asked root .images suffix output scale
  obtain ⟨paths, made, hOpened, -, hFiles⟩ := exists_opened hNormal hPlain hPlan hRun
  have hSteady : Steady (files.absolute directory).parts made first.files := by
    rw [hFiles]
    exact (hOpened.settled_all setting fun path => hOpened.clear_of_outside hOutside).steady
  cases hSources : Discovery.sources first.files plan.root plan.suffix with
  | error trouble =>
      have hSecond : second = ⟨.error trouble, [], first.files⟩ := run_of_no_sources hSources
      rw [hSecond]
      refine ⟨⟨by simp, by simp, rfl, fun _ => rfl⟩, ?_, fun _ _ => ⟨trouble, rfl⟩, fun hWay => ?_⟩
      · intro other hOther
        cases hOther
        exact hOpened.astray_of_sources hSteady hOutside hSources
      · rw [hOpened.sources_of_no_parent hSteady hOutside hWay] at hSources
        cases hSources
  | ok others =>
      obtain rfl := hOpened.sources_again hSteady hOutside hSources
      have hAgain : Opened plan directory first.files others first.files :=
        ⟨hPlan, hNormal, hSteady.plain, hSources, hOpened.makeDirectories_again hSteady hHere⟩
      obtain ⟨again, hSecond⟩ : ∃ again, second.result = .ok again :=
        ⟨_, congrArg Ending.result hAgain.run_eq⟩
      refine ⟨hOpened.repeated hSteady hFiles.symm hAgain hOutside hTable hRenderer, ?_, ?_,
        fun _ => ⟨again, hSecond⟩⟩
      · simp [hSecond]
      · intro names hAstray
        obtain ⟨trouble, hError⟩ := hOpened.sources_of_astray hSteady hAstray
        rw [hSources] at hError
        cases hError

/-- The setting of `mirror` with sources that take their time. -/
def slow : Setting :=
  { mirror with parsing := fun _ => ⟨1500⟩, drawing := fun _ => ⟨20⟩ }

theorem images_repeated_of_twins :
    ∃ summary again, (run mirror twinsDrawn twins).result = .ok summary
      ∧ (run slow twinsDrawn (run mirror twinsDrawn twins).files).result = .ok again
      ∧ again.untimed = summary.untimed
      ∧ Repeated (run mirror twinsDrawn twins)
        (run slow twinsDrawn (run mirror twinsDrawn twins).files) := by
  obtain ⟨summary, hRun⟩ := exists_summary_of_twins
  have hTable : slow.table = mirror.table := rfl
  have hRenderer : slow.renderer = mirror.renderer := rfl
  obtain ⟨hRepeated, -, -, hAgain⟩ := images_repeated hTable hRenderer "repo" ".py" (some "out")
    (.real Image.defaultScale) plain_twins rfl rfl (by decide) hRun
  obtain ⟨again, hSecond⟩ := hAgain (by decide +kernel)
  exact ⟨summary, again, hRun, hSecond, hRepeated.summary summary again hRun hSecond, hRepeated⟩

/-- Names that lead into a directory and out of it again so many times. -/
def detour (count : Nat) : List String :=
  (List.replicate count ["r", ".."]).flatten

theorem detour_succ (count : Nat) (names : List String) :
    detour (count + 1) ++ names = "r" :: ".." :: (detour count ++ names) := by
  simp [detour, List.replicate_succ]

/-- Detours lead back to where they began. -/
theorem leads_detour {root entry : Entry} {goal : Location} {names : List String}
    (hKind : root.kind? ["r"] = some .directory)
    (hLeads : FileSystem.Leads root [] names goal entry) (count : Nat) :
    FileSystem.Leads root [] (detour count ++ names) goal entry := by
  induction count with
  | zero => exact hLeads
  | succ count ih =>
      rw [detour_succ]
      exact .into (by decide) (by decide +kernel) hKind (.up ih)

theorem text_detour_succ {names : List String} (hSome : names ≠ []) (count : Nat) :
    (Path.mk .here (detour (count + 1) ++ names)).text
      = "r/../" ++ (Path.mk .here (detour count ++ names)).text := by
  have hRest : detour count ++ names ≠ [] := by simp [hSome]
  have hWay : "r" ++ "/" ++ (".." ++ "/") = "r/../" := by decide +kernel
  rw [detour_succ, Path.text, Path.text, if_neg (by simp), if_neg (by simp [hSome]),
    String.intercalate_cons_cons, String.intercalate_cons_of_ne_nil hRest, ← hWay]
  simp only [Anchor.text, String.empty_append, String.append_assoc]

/-- A detour is refused exactly if it is too long. -/
theorem refuse?_detour {names : List String} (hSome : names ≠ [])
    (hNull : '\x00' ∉ (Path.mk .here names).text.toList) (count : Nat) :
    FileSystem.refuse? ⟨.here, detour count ++ names⟩
      = if FileSystem.longestPath < 5 * count + (Path.mk .here names).text.utf8ByteSize
        then some .nameTooLong else none := by
  have hText : '\x00' ∉ (Path.mk .here (detour count ++ names)).text.toList
      ∧ (Path.mk .here (detour count ++ names)).text.utf8ByteSize
        = 5 * count + (Path.mk .here names).text.utf8ByteSize := by
    induction count with
    | zero => exact ⟨hNull, by simp [detour]⟩
    | succ count ih =>
        have hSize : "r/../".utf8ByteSize = 5 := by decide +kernel
        rw [text_detour_succ hSome, String.toList_append, String.utf8ByteSize_append, ih.2, hSize]
        exact ⟨by simpa using ih.1, by omega⟩
  rw [FileSystem.refuse?, hText.2, if_neg (by simpa using hText.1)]

/-- A tree with a single directory, which is empty. -/
def hollow : FileSystem :=
  ⟨.directory [("r", .directory [])], []⟩

/-- A path to the directory of `hollow` that leaves it so many times. -/
def winding (count : Nat) : Path :=
  ⟨.here, detour count ++ ["r"]⟩

/-- A survey of `hollow` by such a path, whose images go beside the root on a way through it. -/
def straying (count : Nat) : Plan :=
  Plan.asked (winding count).text .images ".py" (some "r/news/../../out") (.real Image.defaultScale)

theorem plain_hollow : hollow.root.Plain := by
  refine Entry.plain_directory (by decide) (by decide) fun entry hEntry => ?_
  obtain rfl := List.mem_singleton.mp hEntry
  exact Entry.plain_directory (by simp) (by simp) (by simp)

theorem normal_winding (count : Nat) : (winding count).Normal := by
  have hParts : ∀ part ∈ detour count ++ ["r"], part = "r" ∨ part = ".." := by
    induction count with
    | zero => simp [detour]
    | succ count ih =>
        rw [detour_succ]
        simpa using ih
  intro part hPart
  rcases hParts part hPart with rfl | rfl <;> decide

theorem root_straying (count : Nat) : (straying count).root = winding count :=
  Path.ofString_text (normal_winding count)

/-- A winding root is found as long as its text is not too long. -/
theorem find_winding {count : Nat} (hCount : 5 * count < FileSystem.longestPath) :
    hollow.find (winding count) = .ok (.present ["r"] (.directory [])) := by
  have hLeads : FileSystem.Leads hollow.root [] ["r"] ["r"] (.directory []) :=
    .into (by decide) (by decide +kernel) rfl (.here rfl)
  have hSize : (Path.mk .here ["r"]).text.utf8ByteSize = 1 := by decide +kernel
  refine (FileSystem.findFor_eq_present_iff plain_hollow (normal_winding count)).mpr
    ⟨?_, leads_detour rfl hLeads count⟩
  rw [winding, refuse?_detour (by simp) (by decide +kernel), hSize, if_neg (by omega)]

/-- Below a winding root of nearly the longest length nothing can be looked up. -/
theorem find_below_winding {count : Nat} (hCount : FileSystem.longestPath ≤ 5 * count + 5)
    (files : FileSystem) : files.find ((winding count).below ["news"]) = .error .nameTooLong := by
  have hPath : (winding count).below ["news"] = ⟨.here, detour count ++ ["r", "news"]⟩ := by
    rw [winding, Path.below, List.append_assoc]
    rfl
  have hSize : (Path.mk .here ["r", "news"]).text.utf8ByteSize = 6 := by decide +kernel
  rw [FileSystem.find, FileSystem.findFor, hPath, refuse?_detour (by simp) (by decide +kernel),
    hSize, if_pos (by omega)]

theorem sources_winding {count : Nat} (hCount : 5 * count < FileSystem.longestPath) :
    Discovery.sources hollow (winding count) ".py" = .ok [] := by
  have hFind := find_winding hCount
  have hDirectory : hollow.findDirectory (winding count) = .ok ["r"] :=
    FileSystem.findDirectory_eq_ok.mpr ⟨[], hFind⟩
  have hEntries : hollow.entriesBelow (winding count) = [] := by
    rw [FileSystem.entriesBelow, hDirectory]
    rfl
  simp only [Discovery.sources, FileSystem.pathExists, FileSystem.isDirectory, FileSystem.ask,
    hFind, hEntries, Discovery.onlyFiles, Except.map, List.map_nil, List.filter_nil,
    List.mergeSort_nil]

theorem opened_straying {count : Nat} (hCount : 5 * count < FileSystem.longestPath) :
    ∃ made, Opened (straying count) (.ofString "r/news/../../out") hollow [] made := by
  have hMake : (hollow.makeDirectories (.ofString "r/news/../../out")).2 = none := by
    decide +kernel
  generalize hMade : hollow.makeDirectories (.ofString "r/news/../../out") = outcome at hMake
  obtain ⟨made, failure⟩ := outcome
  cases hMake
  refine ⟨made, rfl, Plan.normal_asked _ _ _ _ _, plain_hollow, ?_, hMade⟩
  rw [root_straying]
  exact sources_winding hCount

/-- A survey can leave a directory below the root that it cannot come to again, since the path from
the root is too long. -/
theorem images_not_repeated :
    hollow.root.Plain ∧ hollow.Stationed
      ∧ (straying 818).imageDirectory? = some (.ofString "r/news/../../out")
      ∧ ¬(hollow.absolute (straying 818).root).parts
        <+: (hollow.absolute (.ofString "r/news/../../out")).parts
      ∧ (run mirror (straying 818) hollow).result = .ok .empty
      ∧ ∃ names, (run mirror (straying 818) (run mirror (straying 818) hollow).files).result
        = .error (.file ⟨.nameTooLong, (straying 818).root.below names⟩) := by
  have hCount : 5 * 818 < FileSystem.longestPath := by decide
  obtain ⟨made, hOpened⟩ := opened_straying hCount
  have hParts : (hollow.absolute (straying 818).root).parts = ["r"] := by
    obtain ⟨entries, hFind⟩ :=
      Discovery.find_of_sources plain_hollow (normal_winding 818) (sources_winding hCount)
    rw [find_winding hCount, Except.ok.injEq, FileSystem.Found.present.injEq] at hFind
    rw [root_straying]
    exact hFind.1.symm
  have hOutside : ¬(hollow.absolute (straying 818).root).parts
      <+: (hollow.absolute (.ofString "r/news/../../out")).parts := by
    rw [hParts]
    decide +kernel
  have hRun : run mirror (straying 818) hollow = ⟨.ok .empty,
      (opening (straying 818) (.ofString "r/news/../../out") hollow []).log, made⟩ := by
    rw [hOpened.run_eq]
    simp only [visitAll, List.foldl_nil, opening, begin, hOpened.make]
  obtain ⟨hMade, -⟩ := hOpened.made_site
  have hNews : made.root.kind? ["r", "news"] = some .directory :=
    (FileSystem.makeDirectories_directory_iff plain_hollow (Path.normal_ofString _) hOpened.make
      rfl).mpr ⟨["r"], "news", by decide +kernel, by decide, by decide +kernel⟩
  have hAstray : Astray (straying 818).root hollow made ["news"] := by
    refine ⟨by rw [hParts]; rfl, by rw [hParts]; exact hNews, ?_⟩
    rw [root_straying]
    exact find_below_winding (by decide) made
  obtain ⟨trouble, hAgain⟩ := hOpened.sources_of_astray (.refl hMade.plain) hAstray
  obtain ⟨names, -, rfl⟩ := hOpened.astray_of_sources (.refl hMade.plain) hOutside hAgain
  refine ⟨plain_hollow, rfl, rfl, hOutside, by rw [hRun], names, ?_⟩
  rw [hRun, run_of_no_sources hAgain]

end Survey

end SyntaxSurvey
