import Mathlib.Data.String.Basic
import Mathlib.Order.Lex
import SyntaxSurvey.Proofs.Survey.Failure
import SyntaxSurvey.Proofs.Survey.Refinement

/-! What is discovered below a root, told by what stands there. Whether an entry can be looked up
depends on how its path is written and on nothing else, so two trees in which the same files stand
below the root have the same sources, in the same order. -/

open SyntaxSurvey.Path (IsPart)

namespace SyntaxSurvey

namespace FileSystem

/-- Whether a name is longer than any component may be. -/
def isOverlong (name : String) : Bool :=
  decide (longestName < name.utf8ByteSize)

/-- What is in the way of looking up an entry that lies below a directory by these names. -/
def obstacle? (root : Path) (names : List String) : Option Cause :=
  (refuse? (root.below names)).or (if names.any isOverlong then some .nameTooLong else none)

variable {fs : FileSystem} {root path : Path} {place : Location} {entries : List (String × Entry)}
  {names : List String} {entry : Entry}

/-- Only a name that is too long is in the way to what stands somewhere. -/
theorem walkWith_of_at? (aim : Aim) (onLink : Location → String → List String → Except Cause Found)
    (hPlain : fs.root.Plain) (hAt : fs.root.at? (place ++ names) = some entry) :
    walkWith fs.root aim onLink place names
      = if names.any isOverlong then .error .nameTooLong
        else .ok (.present (place ++ names) entry) := by
  induction names generalizing place with
  | nil =>
      rw [List.append_nil] at hAt
      simp [walkWith, hAt]
  | cons name rest ih =>
      have hNames := hPlain.isName_of_mem hAt
      have hRest : ∀ part ∈ rest, IsPart part := fun part hPart =>
        (hNames part (List.mem_append_right _ (List.mem_cons_of_mem _ hPart))).toIsPart
      have hSplit : place ++ name :: rest = (place ++ [name]) ++ rest := by simp
      rw [hSplit] at hAt
      obtain ⟨found, hFound, hBelow⟩ :=
        Option.bind_eq_some_iff.mp ((Entry.at?_append _ _ _).symm.trans hAt)
      rw [walkWith_name fs.root aim onLink (hNames name (by simp)) hRest, hFound, hSplit,
        List.any_cons, isOverlong]
      by_cases hLong : longestName < name.utf8ByteSize
      · simp [hLong]
      · simp only [hLong, if_false, decide_false, Bool.false_or]
        cases found with
        | directory inner => exact ih hAt
        | link target =>
            exact absurd (Entry.kind?_eq_link.mpr hFound) (hPlain.linkless _ target)
        | file content =>
            cases rest with
            | nil =>
                cases hBelow
                simp
            | cons next others => cases hBelow

/-- What lies below a directory is looked up by the path of the directory and its names. -/
theorem find_below (hPlain : fs.root.Plain) (hRoot : root.Normal)
    (hFind : fs.find root = .ok (.present place (.directory entries)))
    (hAt : fs.root.at? (place ++ names) = some entry) :
    fs.find (root.below names)
      = match obstacle? root names with
        | some cause => .error cause
        | none => .ok (.present (place ++ names) entry) := by
  have hNames : ∀ name ∈ names, IsPart name := fun name hName =>
    (hPlain.isName_of_mem hAt name (List.mem_append_right _ hName)).toIsPart
  obtain ⟨-, hLeads⟩ := (findFor_eq_present_iff hPlain hRoot).mp hFind
  obtain ⟨onLink, hWalk⟩ := exists_walk_eq fs.root .seeing
  have hFound : walkWith fs.root .seeing onLink (fs.start root) (root.parts ++ names)
      = if names.any isOverlong then .error .nameTooLong
        else .ok (.present (place ++ names) entry) :=
    (walkWith_append fs.root .seeing onLink hRoot hNames hLeads).trans
      (walkWith_of_at? .seeing onLink hPlain hAt)
  rw [find, findFor, hWalk, obstacle?]
  cases refuse? (root.below names) with
  | some cause => rfl
  | none =>
      refine Eq.trans hFound ?_
      cases names.any isOverlong <;> rfl

/-- The listing of a directory, by places. -/
theorem mem_entriesBelow_iff (hDistinct : fs.root.Distinct)
    (hFind : fs.find root = .ok (.present place (.directory entries))) :
    path ∈ (fs.entriesBelow root).map Prod.fst
      ↔ ∃ names entry, names ≠ [] ∧ path = root.below names
        ∧ fs.root.at? (place ++ names) = some entry := by
  have hDirectory : fs.findDirectory root = .ok place :=
    findDirectory_eq_ok.mpr ⟨entries, hFind⟩
  have hAt := (find_eq_ok_iff.mp hFind).2.at?
  rw [entriesBelow, hDirectory]
  simp only [hAt, List.map_map, List.mem_map]
  constructor
  · rintro ⟨⟨names, found⟩, hMem, rfl⟩
    obtain ⟨hSome, hFound⟩ := (Entry.mem_descendants_iff (hDistinct.of_at? hAt)).mp hMem
    exact ⟨names, found, hSome, rfl, by rw [Entry.at?_append, hAt]; exact hFound⟩
  · rintro ⟨names, found, hSome, rfl, hFound⟩
    rw [Entry.at?_append, hAt] at hFound
    exact ⟨(names, found),
      (Entry.mem_descendants_iff (hDistinct.of_at? hAt)).mpr ⟨hSome, hFound⟩, rfl⟩

end FileSystem

namespace Discovery

open FileSystem

variable {fs other : FileSystem} {root path : Path} {place : Location}
  {entries otherEntries : List (String × Entry)} {suffix : String} {paths others : List Path}

/-- Sources are found below a root that is a directory. -/
theorem find_of_sources (hPlain : fs.root.Plain) (hRoot : root.Normal)
    (hSources : sources fs root suffix = .ok paths) :
    ∃ entries, fs.find root = .ok (.present (fs.absolute root).parts (.directory entries)) := by
  rw [sources] at hSources
  split at hSources
  all_goals try cases hSources
  rename_i hDirectory
  obtain ⟨place, entries, hFind⟩ := isDirectory_eq_true.mp hDirectory
  have hLeads := ((findFor_eq_present_iff hPlain hRoot).mp hFind).2
  have hPlace : place = (fs.absolute root).parts := hLeads.goal_eq
  exact ⟨entries, hPlace ▸ hFind⟩

/-- A source is a file below the root whose path can be looked up. -/
theorem mem_sources_iff_kind? (hPlain : fs.root.Plain) (hRoot : root.Normal)
    (hFind : fs.find root = .ok (.present place (.directory entries)))
    (hSources : sources fs root suffix = .ok paths) :
    path ∈ paths ↔ ∃ names content, path = root.below names
      ∧ fs.root.kind? (place ++ names) = some (.file content)
      ∧ obstacle? root names = none ∧ hasSuffix suffix path = true := by
  rw [mem_sources_iff hSources, mem_entriesBelow_iff hPlain.distinct hFind]
  constructor
  · rintro ⟨⟨names, entry, -, rfl, hAt⟩, hFile, hSuffix⟩
    obtain ⟨found, content, hLooked⟩ := isFile_eq_true.mp hFile
    have hBelow := find_below hPlain hRoot hFind hAt
    cases hObstacle : obstacle? root names with
    | some cause => simp [hObstacle, hLooked] at hBelow
    | none =>
        simp only [hObstacle, hLooked, Except.ok.injEq, Found.present.injEq] at hBelow
        obtain ⟨rfl, rfl⟩ := hBelow
        exact ⟨names, content, rfl, Entry.kind?_eq_file.mpr hAt, hObstacle, hSuffix⟩
  · rintro ⟨names, content, rfl, hKind, hObstacle, hSuffix⟩
    have hAt := Entry.kind?_eq_file.mp hKind
    have hBelow := find_below hPlain hRoot hFind hAt
    simp only [hObstacle] at hBelow
    refine ⟨⟨names, _, ?_, rfl, hAt⟩, isFile_eq_true.mpr ⟨_, content, hBelow⟩, hSuffix⟩
    rintro rfl
    rw [List.append_nil, (find_eq_ok_iff.mp hFind).2.at?] at hAt
    cases hAt

/-- Something below a directory cannot be looked up if the sources there cannot be enumerated. -/
theorem exists_unasked_of_sources {trouble : Trouble} (hDistinct : fs.root.Distinct)
    (hFind : fs.find root = .ok (.present place (.directory entries)))
    (hSources : sources fs root suffix = .error trouble) :
    ∃ names entry, names ≠ [] ∧ fs.root.at? (place ++ names) = some entry
      ∧ fs.find (root.below names) = .error .nameTooLong
      ∧ trouble = .file ⟨.nameTooLong, root.below names⟩ := by
  cases barred_of_sources hSources with
  | rootUnasked hLong => simp [hFind] at hLong
  | rootMissing _ hNone => exact absurd hFind (hNone place _)
  | rootNotDirectory hOther hNot =>
      rw [hFind] at hOther
      cases hOther
      exact absurd rfl (hNot entries)
  | entryUnasked _ hMem hLong =>
      obtain ⟨names, entry, hSome, rfl, hAt⟩ := (mem_entriesBelow_iff hDistinct hFind).mp hMem
      exact ⟨names, entry, hSome, hAt, hLong, rfl⟩

/-- The path of something below the root is too long if sources cannot be enumerated. -/
theorem exists_overlong_of_sources {trouble : Trouble} (hPlain : fs.root.Plain)
    (hRoot : root.Normal) (hFind : fs.find root = .ok (.present place (.directory entries)))
    (hSources : sources fs root suffix = .error trouble) :
    ∃ names, names ≠ [] ∧ fs.root.kind? (place ++ names) ≠ none
      ∧ obstacle? root names = some .nameTooLong
      ∧ trouble = .file ⟨.nameTooLong, root.below names⟩ := by
  obtain ⟨names, entry, hSome, hAt, hLong, rfl⟩ :=
    exists_unasked_of_sources hPlain.distinct hFind hSources
  have hBelow := find_below hPlain hRoot hFind hAt
  refine ⟨names, hSome, fun hNone => ?_, ?_, rfl⟩
  · simp [Entry.kind?_eq_none.mp hNone] at hAt
  · cases hObstacle : obstacle? root names with
    | none => simp [hObstacle, hLong] at hBelow
    | some cause =>
        simp only [hObstacle, hLong, Except.error.injEq] at hBelow
        rw [hBelow]

/-- Sources cannot be enumerated if the path of something below the root is too long. -/
theorem sources_of_overlong {names : List String} (hPlain : fs.root.Plain) (hRoot : root.Normal)
    (hFind : fs.find root = .ok (.present place (.directory entries))) (hSome : names ≠ [])
    (hKind : fs.root.kind? (place ++ names) ≠ none)
    (hObstacle : obstacle? root names = some .nameTooLong) (suffix : String) :
    ∃ trouble, sources fs root suffix = .error trouble := by
  obtain ⟨entry, hAt⟩ := Option.ne_none_iff_exists'.mp fun hNone =>
    hKind (Entry.kind?_eq_none.mpr hNone)
  have hBelow := find_below hPlain hRoot hFind hAt
  simp only [hObstacle] at hBelow
  have hMem := (mem_entriesBelow_iff hPlain.distinct hFind).mpr ⟨names, entry, hSome, rfl, hAt⟩
  exact (Barred.entryUnasked (isDirectory_eq_true.mpr ⟨place, entries, hFind⟩) hMem
    hBelow).sources suffix

theorem notAfter_trans (a b c : Path) (hab : a.notAfter b = true) (hbc : b.notAfter c = true) :
    a.notAfter c = true := by
  simp only [Path.notAfter, Bool.not_eq_true', decide_eq_false_iff_not, not_lt] at *
  exact hab.trans hbc

theorem notAfter_total (a b : Path) : (a.notAfter b || b.notAfter a) = true := by
  simp only [Path.notAfter, Bool.or_eq_true, Bool.not_eq_true', decide_eq_false_iff_not, not_lt]
  exact le_total _ _

/-- Paths of one anchor that come neither before nor after each other are the same. -/
theorem eq_of_notAfter {a b : Path} (hAnchor : a.anchor = b.anchor) (hab : a.notAfter b = true)
    (hba : b.notAfter a = true) : a = b := by
  simp only [Path.notAfter, Bool.not_eq_true', decide_eq_false_iff_not, not_lt] at hab hba
  obtain ⟨anchor, parts⟩ := a
  obtain ⟨otherAnchor, otherParts⟩ := b
  obtain rfl : anchor = otherAnchor := hAnchor
  exact congrArg (Path.mk anchor) (le_antisymm hab hba)

/-- The sources are in the order of their paths. -/
theorem pairwise_sources (hSources : sources fs root suffix = .ok paths) :
    paths.Pairwise fun a b => a.notAfter b = true := by
  rw [sources] at hSources
  split at hSources
  all_goals try cases hSources
  cases hFound : onlyFiles fs ((fs.entriesBelow root).map Prod.fst) with
  | error trouble => simp [hFound, Except.map] at hSources
  | ok found =>
      simp only [hFound, Except.map, Except.ok.injEq] at hSources
      exact hSources ▸ List.pairwise_mergeSort notAfter_trans notAfter_total _

/-- Where the same files stand below a root, the same sources are found in the same order. -/
theorem sources_congr (hPlain : fs.root.Plain) (hOther : other.root.Plain) (hRoot : root.Normal)
    (hFind : fs.find root = .ok (.present place (.directory entries)))
    (hOtherFind : other.find root = .ok (.present place (.directory otherEntries)))
    (hFiles : ∀ names content, other.root.kind? (place ++ names) = some (.file content)
      ↔ fs.root.kind? (place ++ names) = some (.file content))
    (hSources : sources fs root suffix = .ok paths)
    (hOtherSources : sources other root suffix = .ok others) : others = paths := by
  have hSame (path : Path) : path ∈ others ↔ path ∈ paths := by
    rw [mem_sources_iff_kind? hPlain hRoot hFind hSources,
      mem_sources_iff_kind? hOther hRoot hOtherFind hOtherSources]
    simp only [hFiles]
  have hPerm : others.Perm paths := (List.perm_ext_iff_of_nodup
    (nodup_sources hOther hOtherSources) (nodup_sources hPlain hSources)).mpr hSame
  have hAnchor (path : Path) (hPath : path ∈ paths) : path.anchor = root.anchor := by
    obtain ⟨names, rfl, -⟩ := below_of_mem hPlain hSources hPath
    rfl
  refine hPerm.eq_of_pairwise (fun a b ha hb => eq_of_notAfter ?_) (pairwise_sources hOtherSources)
    (pairwise_sources hSources)
  rw [hAnchor a ((hSame a).mp ha), hAnchor b hb]

end Discovery

end SyntaxSurvey
