import SyntaxSurvey.Proofs.Image.Directory
import SyntaxSurvey.Proofs.Survey.Refinement
import SyntaxSurvey.Proofs.Survey.Retention

/-! Surveys that draw into the directory that goes with their root. Below a root that is named by
its path nothing changes; below any other root stands the directory for images. -/

namespace SyntaxSurvey

open FileSystem (Entry Location)
open Number (Quantity)

namespace FileSystem

variable {fs : FileSystem} {path : Path} {goal : Location}

/-- That something is missing on the way is never why a directory cannot be made in another one. -/
theorem cause_of_makeDirectory {failure : Failure} (hParent : fs.findDirectory path.parent = .ok goal)
    (hMake : fs.makeDirectory path = .error failure) : failure.cause ≠ .notFound := by
  have hRefused {cause : Cause} (hRefuse : refuse? path = some cause) : cause ≠ .notFound := by
    rw [refuse?] at hRefuse
    split at hRefuse
    · cases hRefuse
      simp
    · split at hRefuse
      · cases hRefuse
        simp
      · cases hRefuse
  rw [makeDirectory, hParent] at hMake
  split at hMake
  · cases hMake
    exact hRefused ‹_›
  · cases hMake
    simp
  · dsimp only at hMake
    split at hMake
    · cases hMake
      simp
    split at hMake
    · cases hMake
      simp
    split at hMake
    · cases hMake
      simp
    · cases hMake

/-- In a directory that is there, at most one directory is made. -/
theorem makeDirectories_of_parent (hParent : fs.findDirectory path.parent = .ok goal) :
    (fs.makeDirectories path).1 = fs ∨ fs.makeDirectory path = .ok (fs.makeDirectories path).1 := by
  have hPath : Path.mk path.anchor (path.parts.take path.parts.length) = path := by
    rw [List.take_length]
  cases hMake : fs.makeDirectory path with
  | error failure =>
      rw [← hPath] at hMake
      rw [makeDirectories, makeDirectoriesTo_of_error hMake
        (cause_of_makeDirectory hParent (hPath ▸ hMake))]
      exact Or.inl rfl
  | ok later =>
      refine Or.inr ?_
      rw [← hPath] at hMake
      rw [makeDirectories]
      cases hLength : path.parts.length with
      | zero =>
          rw [hLength, List.take_zero] at hMake
          rw [makeDirectoriesTo, hMake]
      | succ depth =>
          rw [hLength] at hMake
          rw [makeDirectoriesTo]
          simp only [hMake]

/-- Where its parent is found, making a directory changes nothing but its place. -/
theorem kind?_makeDirectories (hPath : path.Normal)
    (hParent : fs.findDirectory path.parent = .ok goal) {other : Location}
    (hOther : other ≠ goal ++ [path.name]) :
    (fs.makeDirectories path).1.root.kind? other = fs.root.kind? other := by
  rcases makeDirectories_of_parent hParent with hSame | hMake
  · rw [hSame]
  · obtain ⟨init, name, directory, hParts, -, -, -, hFind, hFree, hLater⟩ :=
      makeDirectory_cases hPath hMake
    have hInit : path.parent = ⟨path.anchor, init⟩ := by simp [Path.parent, hParts]
    have hName : path.name = name := by simp [Path.name, hParts]
    obtain rfl : goal = directory := by
      rw [hInit, hFind] at hParent
      exact (Except.ok.inj hParent).symm
    obtain ⟨entries, hGoal⟩ := findDirectory_eq_ok.mp hFind
    have hKind := Entry.kind?_eq_directory.mpr ⟨entries, (find_eq_ok_iff.mp hGoal).2.at?⟩
    rw [hLater]
    exact (Entry.kind?_put Entry.isLeaf_directory hKind (by simp [hFree]) other).trans
      (if_neg (hName ▸ hOther))

/-- Without links, the wording of a path tells where what it is in stands. -/
theorem parts_absolute_eq (hPlain : fs.root.Plain) (hPath : path.Normal) (hNamed : path.IsNamed)
    (hParent : fs.findDirectory path.parent = .ok goal) :
    (fs.absolute path).parts = goal ++ [path.name] := by
  obtain ⟨-, entries, hLeads⟩ := (findDirectory_eq_ok_iff hPlain hPath.parent).mp hParent
  have hGoal : goal = lexicalPlace (fs.start path) path.parts.dropLast := hLeads.goal_eq
  have hParts : path.parts = path.parts.dropLast ++ [path.name] := by
    rw [Path.name, List.getLast?_eq_some_getLast hNamed.1, Option.getD_some,
      List.dropLast_concat_getLast]
  rw [hGoal, ← lexicalPlace_concat hNamed.2, ← hParts]
  rfl

theorem not_isLink (hPlain : fs.root.Plain) (path : Path) : ¬fs.IsLink path :=
  fun ⟨_, target, _, hKind⟩ => hPlain.linkless _ target hKind

end FileSystem

namespace Survey

variable {setting : Setting} {plan : Plan} {directory : Path} {files : FileSystem}
  {goal : Location}

/-- Nothing changes below a root by a survey that draws into a directory beside it. -/
theorem kind?_run_of_beside (setting : Setting) (hNormal : plan.Normal) (hPlain : files.root.Plain)
    (hPlan : plan.imageDirectory? = some directory) (hNamed : directory.IsNamed)
    (hParent : files.findDirectory directory.parent = .ok goal)
    (hBeside : FileSystem.Beside (files.absolute plan.root).parts (goal ++ [directory.name]))
    {other : Location} (hOther : (files.absolute plan.root).parts <+: other) :
    (run setting plan files).files.root.kind? other = files.root.kind? other := by
  have hDirectory := hNormal.directory directory hPlan
  have hApart := hBeside.not_prefix hOther
  have hPlace := FileSystem.parts_absolute_eq hPlain hDirectory hNamed hParent
  have hMade : (files.makeDirectories directory).1.root.kind? other = files.root.kind? other :=
    FileSystem.kind?_makeDirectories hDirectory hParent fun hEq => hApart (hEq ▸ List.prefix_refl _)
  cases hRun : (run setting plan files).result with
  | ok summary =>
      obtain ⟨paths, made, hOpened, -, hFiles⟩ := exists_opened hNormal hPlain hPlan hRun
      have hOutside : ¬(files.absolute plan.root).parts <+: (files.absolute directory).parts := by
        rw [hPlace]
        exact fun hPrefix => hBeside.not_prefix hPrefix (List.prefix_refl _)
      have hSettled := hOpened.settled_all setting fun path => hOpened.clear_of_outside hOutside
      rw [hOpened.make] at hMade
      rw [hFiles, hSettled.steady.apart other fun name hName => hApart ?_, hMade]
      rw [hName, hPlace]
      exact List.prefix_append _ _
  | error trouble =>
      rw [run] at hRun ⊢
      cases hSources : Discovery.sources files plan.root plan.suffix with
      | error other => rfl
      | ok paths =>
          simp only [hSources, hPlan] at hRun ⊢
          cases hMake : files.makeDirectories directory with
          | mk made failed =>
              rw [hMake] at hMade
              cases failed with
              | none => simp [hMake, complete] at hRun
              | some failure => exact hMade

/-- After a survey there is a directory at the place that the path of the one for images tells. -/
theorem kind?_directory_of_run (hNormal : plan.Normal) (hPlain : files.root.Plain)
    (hHere : files.Stationed) (hPlan : plan.imageDirectory? = some directory) {summary : Summary}
    (hRun : (run setting plan files).result = .ok summary) :
    (run setting plan files).files.root.kind? (files.absolute directory).parts
      = some .directory := by
  obtain ⟨paths, made, hOpened, -, hFiles⟩ := exists_opened hNormal hPlain hPlan hRun
  obtain ⟨hMade, hSite⟩ := hOpened.made_site
  obtain ⟨entries, hFound⟩ := hSite.found
  have hKind : made.root.kind? (files.absolute directory).parts = some .directory :=
    Entry.kind?_eq_directory.mpr ⟨entries, (FileSystem.find_eq_ok_iff.mp hFound).2.at?⟩
  have hOpening : (opening plan directory files paths).files = made := by
    rw [opening, hOpened.make]
    rfl
  have hStationed : (opening plan directory files paths).files.Stationed := by
    rw [hOpening, FileSystem.Stationed, hMade.here]
    exact hMade.kept _ _ hHere
  rw [hFiles]
  exact (retains_visitAll setting plan hStationed paths).root.directory _ (hOpening ▸ hKind)

/-- Where the directory for images is that goes with a root. It is in the directory that the path of
the root leads to without its last component. If the root is no link, it is beside the root exactly
if that component is a name, and below the root otherwise. In a tree without links, a survey that
draws into it changes nothing at or below a root of the first kind, whatever comes of it; and it
leaves that directory below a root of the other kind. -/
theorem directory_beside_root_iff (setting : Setting) (root suffix : String) (scale : Quantity)
    {place : Location} {entries : List (String × Entry)} (hHere : files.Stationed)
    (hFind : files.find (.ofString root) = .ok (.present place (.directory entries))) :
    let directory := Image.directoryFor (.ofString root)
    let ending := run setting (Plan.asked root .images suffix none scale) files
    ∃ goal, files.findDirectory (Path.ofString root).parent = .ok goal ∧
      (¬files.IsLink directory → files.find directory = .error .nameTooLong
        ∨ ∃ found, files.find directory = .ok found ∧ found.place = goal ++ [directory.name]) ∧
      (¬files.IsLink (.ofString root) →
        (FileSystem.Beside place (goal ++ [directory.name]) ↔ (Path.ofString root).IsNamed) ∧
        (¬(Path.ofString root).IsNamed →
          FileSystem.Inside place (goal ++ [directory.name]))) ∧
      (files.root.Plain →
        ((Path.ofString root).IsNamed → ∀ other, place <+: other →
          ending.files.root.kind? other = files.root.kind? other) ∧
        (¬(Path.ofString root).IsNamed → ∀ summary, ending.result = .ok summary →
          ending.files.root.kind? (goal ++ [directory.name]) = some .directory)) := by
  have hRoot := Path.normal_ofString root
  have hNormal := Plan.normal_asked root .images suffix none scale
  have hPlan : (Plan.asked root .images suffix none scale).imageDirectory?
      = some (Image.directoryFor (.ofString root)) := rfl
  obtain ⟨goal, inner, hParent, hPlaced⟩ := FileSystem.place_of_find hHere hRoot hFind
  have hGoal : files.findDirectory (Image.directoryFor (.ofString root)).parent = .ok goal := by
    rw [Image.parent_directoryFor hRoot]
    exact FileSystem.findDirectory_eq_ok.mpr ⟨inner, hParent⟩
  have hBeside (hNoLink : ¬files.IsLink (.ofString root)) :=
    Image.placed_of_parent (hPlaced hNoLink).1 (hPlaced hNoLink).2
  rw [← Image.name_directoryFor hRoot] at hBeside
  have hForNamed := Image.isNamed_directoryFor hRoot
  refine ⟨goal, Image.parent_directoryFor hRoot ▸ hGoal, Image.find_directoryFor hRoot
    (FileSystem.find_eq_ok_iff.mp hFind).1 hParent, hBeside, fun hPlain =>
      ⟨fun hIs other hOther => ?_, fun hNot summary hRun => ?_⟩⟩
  · have hPlace : place = (files.absolute (.ofString root)).parts :=
      ((FileSystem.findFor_eq_present_iff hPlain hRoot).mp hFind).2.goal_eq
    have hApart := (hBeside (FileSystem.not_isLink hPlain _)).1.mpr hIs
    rw [hPlace] at hOther hApart
    exact kind?_run_of_beside setting hNormal hPlain hPlan hForNamed hGoal hApart hOther
  · rw [← FileSystem.parts_absolute_eq hPlain (hNormal.directory _ hPlan) hForNamed hGoal]
    exact kind?_directory_of_run hNormal hPlain hHere hPlan hRun

def twinsKept (root : String) : Plan :=
  Plan.asked root .images ".py" none (.real Image.defaultScale)

theorem directory_beside_root_iff_of_twins :
    (∃ found, twins.find (Image.directoryFor (.ofString "repo")) = .ok found
      ∧ FileSystem.Beside ["repo"] found.place) ∧
    (∀ other, ["repo"] <+: other →
      (run mirror (twinsKept "repo") twins).files.root.kind? other = twins.root.kind? other) ∧
    ∃ summary found, (run mirror (twinsKept "repo/a/..") twins).result = .ok summary
      ∧ twins.find (Image.directoryFor (.ofString "repo/a/..")) = .ok found
      ∧ FileSystem.Inside ["repo"] found.place
      ∧ (run mirror (twinsKept "repo/a/..") twins).files.root.kind? found.place
        = some .directory := by
  have hNamed : (Path.ofString "repo").IsNamed := ⟨by decide +kernel, by decide +kernel⟩
  have hUp : ¬(Path.ofString "repo/a/..").IsNamed := fun hIs => hIs.2 (by decide +kernel)
  have hLink := FileSystem.not_isLink plain_twins
  have hHere : twins.Stationed := rfl
  obtain ⟨entries, hDirect⟩ : ∃ entries, twins.find (.ofString "repo")
      = .ok (.present ["repo"] (.directory entries)) := ⟨_, by rfl⟩
  obtain ⟨others, hRound⟩ : ∃ others, twins.find (.ofString "repo/a/..")
      = .ok (.present ["repo"] (.directory others)) := ⟨_, by rfl⟩
  have hToBool : (run mirror (twinsKept "repo/a/..") twins).result.toBool = true := by
    decide +kernel
  obtain ⟨summary, hOk⟩ := exists_ok_of_toBool hToBool
  obtain ⟨goal, -, hPlace, hBeside, hApart⟩ :=
    directory_beside_root_iff mirror "repo" ".py" (.real Image.defaultScale) hHere hDirect
  obtain ⟨above, -, hRoundPlace, hInside, hMade⟩ :=
    directory_beside_root_iff mirror "repo/a/.." ".py" (.real Image.defaultScale) hHere hRound
  refine ⟨?_, (hApart plain_twins).1 hNamed, summary, ?_⟩
  · rcases hPlace (hLink _) with hLong | ⟨found, hFound, hIs⟩
    · cases hLong
    · exact ⟨found, hFound, hIs ▸ (hBeside (hLink _)).1.mpr hNamed⟩
  · rcases hRoundPlace (hLink _) with hLong | ⟨found, hFound, hIs⟩
    · cases hLong
    · exact ⟨found, hOk, hFound, hIs ▸ (hInside (hLink _)).2 hUp,
        hIs ▸ (hMade plain_twins).2 hUp summary hOk⟩

end Survey

end SyntaxSurvey
