import SyntaxSurvey.Proofs.Discovery.Listing
import SyntaxSurvey.Proofs.FileSystem.Orderly
import SyntaxSurvey.Proofs.FileSystem.Traversal

/-! Discovery as a walk. The sources below a root come in the order in which a depth-first traversal
comes to them, in whichever order the entries below the root were listed. So the sources of one
directory stand together, and a new file does not move the others. -/

namespace SyntaxSurvey.Discovery

open FileSystem

/-- Whether the entry of that path is a file, or a link that leads to one. -/
def isRegular (files : FileSystem) (path : Path) : Entry → Bool
  | .file _ => true
  | .directory _ => false
  | .link _ =>
    match files.find path with
    | .ok (.present _ (.file _)) => true
    | _ => false

/-- The sources that a walk of a directory comes to. -/
def walked (files : FileSystem) (root : Path) (suffix : String) (directory : Entry) : List Path :=
  (directory.traversed.filter fun (names, entry) =>
    isRegular files (root.below names) entry && hasSuffix suffix (root.below names)).map
      fun (names, _) => root.below names

/-- The sources among the listed paths, in the order of paths. -/
def gathered (files : FileSystem) (suffix : String) (listing : List Path) :
    Except Trouble (List Path) :=
  (onlyFiles files listing).map fun paths =>
    (paths.filter (hasSuffix suffix)).mergeSort Path.notAfter

variable {files later : FileSystem} {root path : Path} {suffix : String} {place : Location}
  {entries : List (String × Entry)} {names : List String} {entry : Entry}
  {listing sorted paths others : List Path}

/-- Where every path can be looked up, those that are files are kept. -/
theorem onlyFiles_eq (hAsked : ∀ path ∈ listing, files.find path ≠ .error .nameTooLong) :
    onlyFiles files listing
      = .ok (listing.filter fun path => decide (files.isFile path = .ok true)) := by
  induction listing with
  | nil => rfl
  | cons path rest ih =>
      rw [List.forall_mem_cons] at hAsked
      obtain ⟨answer, hAnswer⟩ : ∃ answer, files.isFile path = .ok answer :=
        exists_answer _ hAsked.1
      rw [onlyFiles, ih hAsked.2, hAnswer, List.filter_cons, hAnswer]
      cases answer <;> rfl

/-- Paths from one anchor that are in order are what sorting makes of them. -/
theorem mergeSort_eq_of_perm {anchor : Anchor} (hPerm : listing.Perm sorted)
    (hAnchor : ∀ path ∈ sorted, path.anchor = anchor)
    (hSorted : sorted.Pairwise fun a b => a.notAfter b = true) :
    listing.mergeSort Path.notAfter = sorted := by
  have hSame := (List.mergeSort_perm listing Path.notAfter).trans hPerm
  refine hSame.eq_of_pairwise (fun a b ha hb => eq_of_notAfter ?_)
    (List.pairwise_mergeSort notAfter_trans notAfter_total _) hSorted
  rw [hAnchor a (hSame.mem_iff.mp ha), hAnchor b hb]

/-- Below a root that is found, the sources are gathered from all that is listed there. -/
theorem sources_eq_gathered (hFind : files.find root = .ok (.present place (.directory entries))) :
    sources files root suffix
      = gathered files suffix ((files.entriesBelow root).map Prod.fst) := by
  have hExists := pathExists_eq_true.mpr ⟨place, _, hFind⟩
  have hDirectory := isDirectory_eq_true.mpr ⟨place, entries, hFind⟩
  rw [sources, hExists, hDirectory]
  rfl

/-- The paths of all that a walk comes to. -/
def visited (root : Path) (directory : Entry) : List Path :=
  directory.traversed.map fun visit => root.below visit.1

/-- A walk comes to paths in order. -/
theorem pairwise_visited {directory : Entry} (hDistinct : directory.Distinct) :
    (visited root directory).Pairwise fun a b => a.parts < b.parts := by
  refine List.pairwise_map.mpr
    ((List.pairwise_map.mp (Entry.pairwise_traversed hDistinct)).imp fun hLess => ?_)
  exact List.append_left_lt hLess

theorem notAfter_of_lt {a b : Path} (hLess : a.parts < b.parts) : a.notAfter b = true := by
  rw [Path.notAfter, Bool.not_eq_true', decide_eq_false_iff_not]
  exact lt_asymm hLess

/-- A walk comes to whatever lies below the directory. -/
theorem mem_visited {directory : Entry} (hDistinct : directory.Distinct) :
    path ∈ visited root directory
      ↔ ∃ names entry, names ≠ [] ∧ directory.at? names = some entry ∧ path = root.below names := by
  rw [visited, List.mem_map]
  constructor
  · rintro ⟨⟨names, entry⟩, hMem, rfl⟩
    obtain ⟨hSome, hAt⟩ := (Entry.mem_traversed_iff hDistinct).mp hMem
    exact ⟨names, entry, hSome, hAt, rfl⟩
  · rintro ⟨names, entry, hSome, hAt, rfl⟩
    exact ⟨(names, entry), (Entry.mem_traversed_iff hDistinct).mpr ⟨hSome, hAt⟩, rfl⟩

/-- A walk comes to what is listed below the root, in another order. -/
theorem entriesBelow_perm (hFind : files.find root = .ok (.present place (.directory entries))) :
    ((files.entriesBelow root).map Prod.fst).Perm (visited root (.directory entries)) := by
  have hDirectory : files.findDirectory root = .ok place := findDirectory_eq_ok.mpr ⟨entries, hFind⟩
  rw [entriesBelow, hDirectory]
  simp only [(find_eq_ok_iff.mp hFind).2.at?, List.map_map]
  exact ((Entry.traversed_perm _).map _).symm

theorem anchor_of_mem_visited {directory : Entry} (hPath : path ∈ visited root directory) :
    path.anchor = root.anchor := by
  obtain ⟨visit, -, rfl⟩ := List.mem_map.mp hPath
  rfl

/-- The sources are gathered in the order of a walk, from whatever order of what it comes to. -/
theorem gathered_eq {directory : Entry} (hDistinct : directory.Distinct)
    (hListing : listing.Perm (visited root directory))
    (hAsked : ∀ path ∈ visited root directory, files.find path ≠ .error .nameTooLong) :
    gathered files suffix listing
      = .ok (((visited root directory).filter fun path =>
          decide (files.isFile path = .ok true)).filter (hasSuffix suffix)) := by
  have hAnchor : ∀ path ∈ ((visited root directory).filter fun path =>
      decide (files.isFile path = .ok true)).filter (hasSuffix suffix), path.anchor = root.anchor :=
    fun path hPath =>
      anchor_of_mem_visited (List.mem_of_mem_filter (List.mem_of_mem_filter hPath))
  rw [gathered, onlyFiles_eq fun path hPath => hAsked path (hListing.mem_iff.mp hPath), Except.map]
  exact congrArg Except.ok (mergeSort_eq_of_perm ((hListing.filter _).filter _) hAnchor
    ((((pairwise_visited hDistinct).filter _).filter _).imp notAfter_of_lt))

/-- A walk takes an entry for a file exactly if it is one when its path is looked up. -/
theorem isRegular_iff (hOrderly : files.root.Orderly)
    (hFind : files.find root = .ok (.present place (.directory entries)))
    (hAt : (Entry.directory entries).at? names = some entry)
    (hAsked : files.find (root.below names) ≠ .error .nameTooLong) :
    isRegular files (root.below names) entry = true
      ↔ files.isFile (root.below names) = .ok true := by
  have hPlace : files.root.at? (place ++ names) = some entry := by
    rw [Entry.at?_append, (find_eq_ok_iff.mp hFind).2.at?]
    exact hAt
  rw [isFile_eq_true]
  cases entry with
  | file content =>
      have hFound := find_below_of_at? hOrderly (by simp) hFind hPlace hAsked
      exact ⟨fun _ => ⟨_, _, hFound⟩, fun _ => rfl⟩
  | directory inner =>
      have hFound := find_below_of_at? hOrderly (by simp) hFind hPlace hAsked
      simp [isRegular, hFound]
  | link target =>
      rw [isRegular]
      constructor
      · intro hRegular
        split at hRegular
        · exact ⟨_, _, ‹_›⟩
        · cases hRegular
      · rintro ⟨goal, content, hFound⟩
        rw [hFound]

/-- What a walk takes along are the files with the ending among those that it comes to. -/
theorem walked_eq (hOrderly : files.root.Orderly)
    (hFind : files.find root = .ok (.present place (.directory entries)))
    (hAsked : ∀ path ∈ visited root (.directory entries),
      files.find path ≠ .error .nameTooLong) :
    ((visited root (.directory entries)).filter fun path =>
        decide (files.isFile path = .ok true)).filter (hasSuffix suffix)
      = walked files root suffix (.directory entries) := by
  have hDistinct := hOrderly.distinct.of_at? (find_eq_ok_iff.mp hFind).2.at?
  rw [walked, visited, List.filter_map, List.filter_map, List.filter_filter]
  refine congrArg (List.map _) (List.filter_congr fun visit hVisit => ?_)
  obtain ⟨names, entry⟩ := visit
  obtain ⟨hSome, hAt⟩ := (Entry.mem_traversed_iff hDistinct).mp hVisit
  have hRegular := isRegular_iff hOrderly hFind hAt
    (hAsked _ ((mem_visited hDistinct).mpr ⟨names, entry, hSome, hAt, rfl⟩))
  rw [Bool.and_comm]
  simp [← hRegular]

/-- Sources are found below a directory if no path of what stands there is too long, and then they
are those of a walk. -/
theorem gathered_eq_walked (hOrderly : files.root.Orderly)
    (hFind : files.find root = .ok (.present place (.directory entries)))
    (hListing : listing.Perm ((files.entriesBelow root).map Prod.fst))
    (hAsked : ∀ path ∈ visited root (.directory entries),
      files.find path ≠ .error .nameTooLong) :
    gathered files suffix listing = .ok (walked files root suffix (.directory entries)) := by
  have hDistinct := hOrderly.distinct.of_at? (find_eq_ok_iff.mp hFind).2.at?
  rw [gathered_eq hDistinct (hListing.trans (entriesBelow_perm hFind)) hAsked,
    walked_eq hOrderly hFind hAsked]

/-- Where there are sources, every path below the root could be looked up. -/
theorem asked_of_sources (hFind : files.find root = .ok (.present place (.directory entries)))
    (hSources : sources files root suffix = .ok paths) :
    ∀ path ∈ visited root (.directory entries), files.find path ≠ .error .nameTooLong := by
  obtain ⟨found, hFound, -⟩ := sources_ok hSources
  exact fun path hPath =>
    asked_of_onlyFiles hFound ((entriesBelow_perm hFind).mem_iff.mpr hPath)

theorem pairwise_walked {directory : Entry} (hDistinct : directory.Distinct) :
    (walked files root suffix directory).Pairwise fun a b => a.parts < b.parts :=
  (pairwise_visited hDistinct).sublist (List.filter_sublist.map _)

/-- What a walk takes along are the files with the ending that lie below the directory. -/
theorem mem_walked {directory : Entry} (hDistinct : directory.Distinct) :
    path ∈ walked files root suffix directory ↔ ∃ names entry, names ≠ []
      ∧ directory.at? names = some entry ∧ path = root.below names
      ∧ isRegular files path entry = true ∧ hasSuffix suffix path = true := by
  rw [walked, List.mem_map]
  constructor
  · rintro ⟨⟨names, entry⟩, hMem, rfl⟩
    rw [List.mem_filter, Bool.and_eq_true] at hMem
    obtain ⟨hSome, hAt⟩ := (Entry.mem_traversed_iff hDistinct).mp hMem.1
    exact ⟨names, entry, hSome, hAt, rfl, hMem.2⟩
  · rintro ⟨names, entry, hSome, hAt, rfl, hBoth⟩
    refine ⟨(names, entry), ?_, rfl⟩
    rw [List.mem_filter, Bool.and_eq_true]
    exact ⟨(Entry.mem_traversed_iff hDistinct).mpr ⟨hSome, hAt⟩, hBoth⟩

theorem nodup_of_pairwise (hPaths : paths.Pairwise fun a b => a.parts < b.parts) : paths.Nodup :=
  hPaths.imp fun hLess => ne_of_apply_ne Path.parts (ne_of_lt hLess)

/-- Paths in order are determined by which they are. -/
theorem eq_of_mem_iff (hPaths : paths.Pairwise fun a b => a.parts < b.parts)
    (hOthers : others.Pairwise fun a b => a.parts < b.parts)
    (hSame : ∀ path, path ∈ paths ↔ path ∈ others) : paths = others := by
  have hPerm : paths.Perm others :=
    (List.perm_ext_iff_of_nodup (nodup_of_pairwise hPaths) (nodup_of_pairwise hOthers)).mpr hSame
  exact hPerm.eq_of_pairwise (fun a b _ _ hab hba => absurd hba (lt_asymm hab)) hPaths hOthers

/-- Among paths in order, fewer of them stand in the same order. -/
theorem sublist_of_subset (hPaths : paths.Pairwise fun a b => a.parts < b.parts)
    (hOthers : others.Pairwise fun a b => a.parts < b.parts) (hSubset : paths ⊆ others) :
    paths.Sublist others := by
  have hKept : paths = others.filter fun path => decide (path ∈ paths) := by
    refine eq_of_mem_iff hPaths (hOthers.filter _) fun path => ?_
    rw [List.mem_filter, decide_eq_true_eq]
    exact ⟨fun hPath => ⟨hSubset hPath, hPath⟩, And.right⟩
  rw [hKept]
  exact List.filter_sublist

/-- One more path in order stands between those before it and those after it. -/
theorem exists_inserted {new : Path} (hPaths : paths.Pairwise fun a b => a.parts < b.parts)
    (hOthers : others.Pairwise fun a b => a.parts < b.parts) (hNew : new ∉ paths)
    (hSame : ∀ path, path ∈ others ↔ path = new ∨ path ∈ paths) :
    ∃ before after, paths = before ++ after ∧ others = before ++ new :: after := by
  obtain ⟨before, after, rfl⟩ := List.append_of_mem ((hSame new).mpr (Or.inl rfl))
  have hRest : (before ++ after).Sublist (before ++ new :: after) :=
    (List.Sublist.refl before).append (List.sublist_cons_self new after)
  have hNodup := nodup_of_pairwise hOthers
  refine ⟨before, after, eq_of_mem_iff hPaths (hOthers.sublist hRest) fun path => ?_, rfl⟩
  constructor
  · intro hPath
    have hNe : path ≠ new := fun hEq => hNew (hEq ▸ hPath)
    simpa [hNe] using (hSame path).mpr (Or.inr hPath)
  · intro hPath
    refine ((hSame path).mp (hRest.subset hPath)).resolve_left ?_
    rintro rfl
    rw [List.nodup_middle] at hNodup
    exact (List.nodup_cons.mp hNodup).1 hPath

/-- What stands between two lists that begin alike begins like them. -/
theorem prefix_of_lt {start a b c : List String} (hFirst : start <+: a) (hLast : start <+: c)
    (hab : a < b) (hbc : b < c) : start <+: b := by
  induction start generalizing a b c with
  | nil => exact List.nil_prefix
  | cons name start ih =>
      obtain ⟨more, rfl⟩ := hFirst
      obtain ⟨rest, rfl⟩ := hLast
      cases b with
      | nil => exact absurd hab (List.not_lt_nil _)
      | cons other below =>
          rw [List.cons_append, List.cons_lt_cons_iff] at hab hbc
          rcases hab with hLess | ⟨rfl, hBelow⟩
          · rcases hbc with hMore | ⟨rfl, -⟩
            · exact absurd hMore (lt_asymm hLess)
            · exact absurd hLess (lt_irrefl _)
          · have hAfter := hbc.resolve_left (lt_irrefl _)
            exact List.cons_prefix_cons.mpr
              ⟨rfl, ih (List.prefix_append _ _) (List.prefix_append _ _) hBelow hAfter.2⟩

/-- What has a property that holds between any two elements that have it stands together, since
nothing stands between one such element and the others. -/
theorem exists_block {α : Type} {p : α → Prop} {xs : List α}
    (hBetween : ∀ a b c, [a, b, c].Sublist xs → p a → p c → p b) :
    ∃ before inside after, xs = before ++ inside ++ after ∧ (∀ x ∈ inside, p x)
      ∧ ∀ x ∈ before ++ after, ¬p x := by
  induction xs with
  | nil => exact ⟨[], [], [], rfl, by simp, by simp⟩
  | cons x xs ih =>
      obtain ⟨before, inside, after, rfl, hInside, hOutside⟩ :=
        ih fun a b c hSublist => hBetween a b c (hSublist.cons x)
      by_cases hx : p x
      · cases inside with
        | nil =>
            refine ⟨[], [x], before ++ after, by simp, by simpa using hx, hOutside⟩
        | cons y inside =>
            obtain rfl : before = [] := by
              refine List.eq_nil_iff_forall_not_mem.mpr fun b hb => ?_
              have hSublist : [x, b, y].Sublist (x :: (before ++ y :: inside ++ after)) := by
                refine List.Sublist.cons_cons x ?_
                rw [List.append_assoc, List.cons_append]
                exact (List.singleton_sublist.mpr hb).append
                  (List.singleton_sublist.mpr List.mem_cons_self)
              exact hOutside b (List.mem_append_left _ hb)
                (hBetween x b y hSublist hx (hInside y List.mem_cons_self))
            exact ⟨[], x :: y :: inside, after, rfl, List.forall_mem_cons.mpr ⟨hx, hInside⟩,
              hOutside⟩
      · exact ⟨x :: before, inside, after, rfl, hInside, List.forall_mem_cons.mpr ⟨hx, hOutside⟩⟩

/-- Paths in order that lie below the same directory stand together. -/
theorem exists_below_block (hPaths : paths.Pairwise fun a b => a.parts < b.parts)
    (start : List String) :
    ∃ before inside after, paths = before ++ inside ++ after
      ∧ (∀ path ∈ inside, start <+: path.parts)
      ∧ ∀ path ∈ before ++ after, ¬start <+: path.parts := by
  refine exists_block fun a b c hSublist hFirst hLast => ?_
  have hOrder := hPaths.sublist hSublist
  simp only [List.pairwise_cons, List.mem_cons, List.not_mem_nil, or_false] at hOrder
  exact prefix_of_lt hFirst hLast (hOrder.1 b (Or.inl rfl)) (hOrder.2.1 c rfl)

/-- A file system with one more file, at a place where nothing stood. -/
structure Added (files : FileSystem) (target : Location) (content : List UInt8)
    (later : FileSystem) : Prop where
  updated : Updated files target content later
  missing : files.root.kind? target = none

/-- A link below a root by which nothing is found, and that is missing at this place. -/
structure Dangles (files : FileSystem) (root : Path) (directory : Entry) (target : Location)
    (path : Path) : Prop where
  link : ∃ names text, path = root.below names ∧ directory.at? names = some (.link text)
  nothing : ∃ parent name, parent ++ [name] = target
    ∧ files.find path = .ok (.absent parent name)

section Added

variable {content : List UInt8}

/-- A root is found again after a file was added below it. -/
theorem Added.find_root (h : Added files (place ++ names) content later)
    (hFind : files.find root = .ok (.present place (.directory entries))) :
    ∃ laterEntries, later.find root = .ok (.present place (.directory laterEntries)) := by
  obtain ⟨other, hOther, hAt⟩ := h.updated.retains.find hFind
  have hKind := h.updated.retains.root.directory place
    (Entry.kind?_eq_directory.mpr ⟨entries, (find_eq_ok_iff.mp hFind).2.at?⟩)
  obtain ⟨laterEntries, hEntries⟩ := Entry.kind?_eq_directory.mp hKind
  obtain rfl : other = .directory laterEntries := Option.some.inj (hAt.symm.trans hEntries)
  exact ⟨laterEntries, hOther⟩

/-- A new file is a source if its name has the ending, and it was none before. -/
theorem Added.mem_iff (h : Added files (place ++ names) content later)
    (hOrderly : files.root.Orderly) (hLaterOrderly : later.root.Orderly)
    (hFind : files.find root = .ok (.present place (.directory entries)))
    (hSources : sources files root suffix = .ok paths)
    (hLater : sources later root suffix = .ok others) :
    root.below names ∉ paths
      ∧ (root.below names ∈ others ↔ hasSuffix suffix (root.below names) = true) := by
  obtain ⟨laterEntries, hLaterFind⟩ := h.find_root hFind
  have hNew : later.root.at? (place ++ names) = some (.file content) :=
    Entry.kind?_eq_file.mp ((h.updated.kind? _).trans (if_pos rfl))
  have hSome : names ≠ [] := by
    rintro rfl
    have hMissing := Entry.kind?_eq_none.mp h.missing
    rw [List.append_nil, (find_eq_ok_iff.mp hFind).2.at?] at hMissing
    cases hMissing
  have hListed := (mem_entriesBelow_iff hLaterOrderly.distinct hLaterFind).mpr
    ⟨names, _, hSome, rfl, hNew⟩
  constructor
  · intro hPath
    obtain ⟨others, entry, -, hEq, hAt⟩ := (mem_entriesBelow_iff hOrderly.distinct hFind).mp
      ((mem_sources_iff hSources).mp hPath).1
    obtain rfl : names = others := by simpa [Path.below] using hEq
    simp [Entry.kind?_eq_none.mp h.missing] at hAt
  · rw [mem_sources_iff hLater]
    refine ⟨fun hAll => hAll.2.2, fun hSuffix => ⟨hListed, ?_, hSuffix⟩⟩
    obtain ⟨found, hFound, -⟩ := sources_ok hLater
    exact isFile_eq_true.mpr ⟨_, _, find_below_of_at? hLaterOrderly (by simp) hLaterFind hNew
      (asked_of_onlyFiles hFound hListed)⟩

/-- Other new sources are links that led to nothing because the file was missing. -/
theorem Added.mem_cases (h : Added files (place ++ names) content later)
    (hOrderly : files.root.Orderly) (hLaterOrderly : later.root.Orderly) (hHere : files.Stationed)
    (hFind : files.find root = .ok (.present place (.directory entries)))
    (hSources : sources files root suffix = .ok paths)
    (hLater : sources later root suffix = .ok others) (hPath : path ∈ others) :
    path ∈ paths ∨ path = root.below names
      ∨ Dangles files root (.directory entries) (place ++ names) path := by
  obtain ⟨laterEntries, hLaterFind⟩ := h.find_root hFind
  obtain ⟨hListed, hFile, hSuffix⟩ := (mem_sources_iff hLater).mp hPath
  obtain ⟨below, entry, hSome, rfl, hLaterAt⟩ :=
    (mem_entriesBelow_iff hLaterOrderly.distinct hLaterFind).mp hListed
  by_cases hNew : below = names
  · exact Or.inr (Or.inl (congrArg root.below hNew))
  obtain ⟨old, hAt⟩ : ∃ old, files.root.at? (place ++ below) = some old := by
    have hKind := h.updated.kind? (place ++ below)
    rw [if_neg (by simpa using hNew), Entry.kind?, hLaterAt] at hKind
    obtain ⟨old, hOld, -⟩ := Option.map_eq_some_iff.mp hKind.symm
    exact ⟨old, hOld⟩
  have hMem := (mem_entriesBelow_iff hOrderly.distinct hFind).mpr ⟨below, old, hSome, rfl, hAt⟩
  rcases h.updated.isFile_before hHere h.missing hFile with
    hSame | ⟨parent, name, hTarget, hAbsent⟩
  · exact Or.inl ((mem_sources_iff hSources).mpr ⟨hMem, hSame, hSuffix⟩)
  · refine Or.inr (Or.inr ⟨?_, parent, name, hTarget, hAbsent⟩)
    have hBelow : (Entry.directory entries).at? below = some old := by
      rw [Entry.at?_append, (find_eq_ok_iff.mp hFind).2.at?] at hAt
      exact hAt
    cases old with
    | link text => exact ⟨below, text, rfl, hBelow⟩
    | file bytes =>
        have hFound := find_below_of_at? hOrderly (by simp) hFind hAt (by simp [hAbsent])
        simp [hAbsent] at hFound
    | directory inner =>
        have hFound := find_below_of_at? hOrderly (by simp) hFind hAt (by simp [hAbsent])
        simp [hAbsent] at hFound

/-- Sources stay sources when a file is added. -/
theorem Added.subset (h : Added files (place ++ names) content later)
    (hOrderly : files.root.Orderly) (hLaterOrderly : later.root.Orderly)
    (hFind : files.find root = .ok (.present place (.directory entries)))
    (hSources : sources files root suffix = .ok paths)
    (hLater : sources later root suffix = .ok others) : paths ⊆ others := by
  intro path hPath
  obtain ⟨laterEntries, hLaterFind⟩ := h.find_root hFind
  obtain ⟨hListed, hFile, hSuffix⟩ := (mem_sources_iff hSources).mp hPath
  obtain ⟨below, entry, hSome, rfl, hAt⟩ := (mem_entriesBelow_iff hOrderly.distinct hFind).mp hListed
  obtain ⟨other, hOther⟩ := h.updated.retains.root.at? hAt
  exact (mem_sources_iff hLater).mpr
    ⟨(mem_entriesBelow_iff hLaterOrderly.distinct hLaterFind).mpr ⟨below, other, hSome, rfl, hOther⟩,
      h.updated.retains.isFile hFile, hSuffix⟩

end Added

/-- Sources are found by a walk, in the order of the walk. -/
theorem sources_eq_walked (hOrderly : files.root.Orderly)
    (hFind : files.find root = .ok (.present place (.directory entries)))
    (hSources : sources files root suffix = .ok paths) :
    paths = walked files root suffix (.directory entries) := by
  have hGathered : gathered files suffix ((files.entriesBelow root).map Prod.fst) = .ok _ :=
    gathered_eq_walked hOrderly hFind (List.Perm.refl _) (asked_of_sources hFind hSources)
  rw [sources_eq_gathered hFind, hGathered] at hSources
  exact (Except.ok.inj hSources).symm

/-- Sources are in order, component by component. -/
theorem pairwise_lt_sources (hOrderly : files.root.Orderly)
    (hFind : files.find root = .ok (.present place (.directory entries)))
    (hSources : sources files root suffix = .ok paths) :
    paths.Pairwise fun a b => a.parts < b.parts := by
  rw [sources_eq_walked hOrderly hFind hSources]
  exact pairwise_walked (hOrderly.distinct.of_at? (find_eq_ok_iff.mp hFind).2.at?)

/-- The sources with one more file among those below the root, if no link led there. -/
theorem Added.sources_eq {content : List UInt8} (h : Added files (place ++ names) content later)
    (hOrderly : files.root.Orderly) (hLaterOrderly : later.root.Orderly) (hHere : files.Stationed)
    (hFind : files.find root = .ok (.present place (.directory entries)))
    (hSources : sources files root suffix = .ok paths)
    (hLater : sources later root suffix = .ok others)
    (hNone : ∀ path, ¬Dangles files root (.directory entries) (place ++ names) path) :
    ∃ before after, paths = before ++ after ∧ others = before
      ++ (if hasSuffix suffix (root.below names) then [root.below names] else []) ++ after := by
  obtain ⟨laterEntries, hLaterFind⟩ := h.find_root hFind
  have hOrder := pairwise_lt_sources hOrderly hFind hSources
  have hLaterOrder := pairwise_lt_sources hLaterOrderly hLaterFind hLater
  have hSubset := h.subset hOrderly hLaterOrderly hFind hSources hLater
  obtain ⟨hNew, hListed⟩ := h.mem_iff hOrderly hLaterOrderly hFind hSources hLater
  have hCases : ∀ path ∈ others, path ∈ paths ∨ path = root.below names := fun path hPath =>
    (h.mem_cases hOrderly hLaterOrderly hHere hFind hSources hLater hPath).imp_right fun hOther =>
      hOther.resolve_right (hNone path)
  by_cases hSuffix : hasSuffix suffix (root.below names) = true
  · obtain ⟨before, after, hPaths, hOthers⟩ := exists_inserted hOrder hLaterOrder hNew fun path =>
      ⟨fun hPath => (hCases path hPath).symm,
        fun hPath => hPath.elim (fun hEq => hEq ▸ hListed.mpr hSuffix) fun hOld => hSubset hOld⟩
    exact ⟨before, after, hPaths, by simpa [hSuffix] using hOthers⟩
  · refine ⟨paths, [], by simp, ?_⟩
    have hSame : others = paths := eq_of_mem_iff hLaterOrder hOrder fun path => by
      refine ⟨fun hPath => (hCases path hPath).resolve_right ?_, fun hPath => hSubset hPath⟩
      rintro rfl
      exact hSuffix (hListed.mp hPath)
    simpa [hSuffix] using hSame

/-- What one more file, below a root, does to the sources that were found there. -/
structure Grown (files : FileSystem) (root : Path) (suffix : String) (place : Location)
    (entries : List (String × Entry)) (names : List String) (paths others : List Path) : Prop where
  /-- The sources from before keep their order. -/
  kept : paths.Sublist others
  /-- The file adds itself and the links that led to nothing because it was missing. -/
  added : ∀ path ∈ others, path ∈ paths ∨ path = root.below names
    ∨ Dangles files root (.directory entries) (place ++ names) path
  /-- Where there are no such links, it adds itself if its name has the ending. -/
  inserted : (∀ path, ¬Dangles files root (.directory entries) (place ++ names) path) →
    ∃ before after, paths = before ++ after ∧ others = before
      ++ (if hasSuffix suffix (root.below names) then [root.below names] else [])
      ++ after

/-- Sources as a walk comes to them. -/
structure Found (files : FileSystem) (root : Path) (suffix : String) (place : Location)
    (entries : List (String × Entry)) (paths : List Path) : Prop where
  /-- They are in the order of a depth-first traversal. -/
  walked : paths = walked files root suffix (.directory entries)
  once : paths.Nodup
  /-- They are the files below the root, and the links to files, whose names have the ending. -/
  mem_iff : ∀ path, path ∈ paths ↔ ∃ names entry, names ≠ []
    ∧ (Entry.directory entries).at? names = some entry ∧ path = root.below names
    ∧ isRegular files path entry = true ∧ hasSuffix suffix path = true
  /-- The order in which the entries below the root were listed has no part in them. -/
  gathered : ∀ listing, listing.Perm ((files.entriesBelow root).map Prod.fst) →
    gathered files suffix listing = .ok paths
  /-- The sources below any one directory stand together. -/
  together : ∀ names, ∃ before inside after, paths = before ++ inside ++ after
    ∧ (∀ path ∈ inside, (root.below names).parts <+: path.parts)
    ∧ ∀ path ∈ before ++ after, ¬(root.below names).parts <+: path.parts
  grown : ∀ later names content, Added files (place ++ names) content later →
    later.root.Orderly → ∀ others, sources later root suffix = .ok others →
      Grown files root suffix place entries names paths others

/-- Discovery below a directory. -/
structure Walks (files : FileSystem) (root : Path) (suffix : String) (place : Location)
    (entries : List (String × Entry)) : Prop where
  /-- Sources are found unless the path of something there, or of what a link there leads to, is too
  long to be looked up. -/
  found_iff : (∃ paths, sources files root suffix = .ok paths) ↔
    ∀ names entry, names ≠ [] → (Entry.directory entries).at? names = some entry →
      files.find (root.below names) ≠ .error .nameTooLong
  /-- Such a path is then reported. -/
  reported : ∀ trouble, sources files root suffix = .error trouble →
    ∃ names, names ≠ [] ∧ files.root.kind? (place ++ names) ≠ none
      ∧ files.find (root.below names) = .error .nameTooLong
      ∧ trouble = .file ⟨.nameTooLong, root.below names⟩
  found : ∀ paths, sources files root suffix = .ok paths →
    Found files root suffix place entries paths

/-- All that is to be said of the sources below one root. -/
theorem found_of_sources (hOrderly : files.root.Orderly) (hHere : files.Stationed)
    (hFind : files.find root = .ok (.present place (.directory entries)))
    (hSources : sources files root suffix = .ok paths) :
    Found files root suffix place entries paths := by
  have hDistinct := hOrderly.distinct.of_at? (find_eq_ok_iff.mp hFind).2.at?
  have hWalked := sources_eq_walked hOrderly hFind hSources
  have hOrder := pairwise_lt_sources hOrderly hFind hSources
  refine ⟨hWalked, nodup_of_pairwise hOrder, fun path => ?_, fun listing hListing => ?_,
    fun names => exists_below_block hOrder _,
    fun later names content hAdded hLaterOrderly others hLater => ⟨?_, fun path hPath => ?_, ?_⟩⟩
  · rw [hWalked, mem_walked hDistinct]
  · rw [hWalked]
    exact gathered_eq_walked hOrderly hFind hListing (asked_of_sources hFind hSources)
  · obtain ⟨laterEntries, hLaterFind⟩ := hAdded.find_root hFind
    exact sublist_of_subset hOrder (pairwise_lt_sources hLaterOrderly hLaterFind hLater)
      (hAdded.subset hOrderly hLaterOrderly hFind hSources hLater)
  · exact hAdded.mem_cases hOrderly hLaterOrderly hHere hFind hSources hLater hPath
  · exact hAdded.sources_eq hOrderly hLaterOrderly hHere hFind hSources hLater

/-- Discovery is a walk in the order of names. Either it finds each source once, in the order of a
depth-first traversal and whatever the order of the listing was, or it reports a path that is too long
to be looked up. One more file in the tree takes no source away and disturbs no order. -/
theorem sources_walk (files : FileSystem) (root : Path) (suffix : String) {place : Location}
    {entries : List (String × Entry)} (hOrderly : files.root.Orderly) (hHere : files.Stationed)
    (hFind : files.find root = .ok (.present place (.directory entries))) :
    Walks files root suffix place entries := by
  have hDistinct := hOrderly.distinct.of_at? (find_eq_ok_iff.mp hFind).2.at?
  refine ⟨⟨fun ⟨paths, hSources⟩ names entry hSome hAt => ?_, fun hAsked => ?_⟩,
    fun trouble hSources => ?_,
    fun paths hSources => found_of_sources hOrderly hHere hFind hSources⟩
  · exact asked_of_sources hFind hSources _
      ((mem_visited hDistinct).mpr ⟨names, entry, hSome, hAt, rfl⟩)
  · refine ⟨_, (sources_eq_gathered hFind).trans
      (gathered_eq_walked hOrderly hFind (List.Perm.refl _) fun path hPath => ?_)⟩
    obtain ⟨names, entry, hSome, hAt, rfl⟩ := (mem_visited hDistinct).mp hPath
    exact hAsked names entry hSome hAt
  · obtain ⟨names, entry, hSome, hAt, hLong, hTrouble⟩ :=
      exists_unasked_of_sources hOrderly.distinct hFind hSources
    refine ⟨names, hSome, fun hNone => ?_, hLong, hTrouble⟩
    simp [Entry.kind?_eq_none.mp hNone] at hAt

/-- A directory, a file whose name goes on where that of the directory ends, and a link. -/
def thicket : List (String × Entry) :=
  [("b", .directory [("x.py", .file [])]), ("b+.py", .file []), ("l.py", .link "b/x.py")]

theorem orderly_of_mem_thicket : ∀ entry ∈ thicket, entry.2.Orderly := by
  have hFile : (Entry.file []).Orderly :=
    Entry.orderly_of_isLeaf (Entry.isLeaf_file []) (by simp)
  have hInner : (Entry.directory [("x.py", .file [])]).Orderly :=
    Entry.orderly_directory (by decide +kernel) (by decide) (by simpa using hFile)
  have hLink : (Entry.link "b/x.py").Orderly :=
    Entry.orderly_of_isLeaf (fun _ => rfl) (by simp)
  simpa [thicket] using ⟨hInner, hFile, hLink⟩

/-- Files that are gathered in order need no sorting. -/
theorem sources_of_pairwise (hFind : files.find root = .ok (.present place (.directory entries)))
    (hFound : (onlyFiles files ((files.entriesBelow root).map Prod.fst)).map
      (List.filter (hasSuffix suffix)) = .ok paths)
    (hOrder : paths.Pairwise fun a b => a.notAfter b = true) :
    sources files root suffix = .ok paths := by
  rw [sources_eq_gathered hFind, gathered]
  cases hFiles : onlyFiles files ((files.entriesBelow root).map Prod.fst) with
  | error trouble => simp [hFiles, Except.map] at hFound
  | ok found =>
      simp only [hFiles, Except.map, Except.ok.injEq] at hFound ⊢
      rw [hFound, List.mergeSort_of_pairwise hOrder]

/-- In the thicket a new file comes after the sources from before. -/
theorem sources_walk_of_thicket :
    let files : FileSystem := ⟨.directory thicket, []⟩
    let paths := [Path.current.below ["b", "x.py"], Path.current.child "b+.py",
      Path.current.child "l.py"]
    walked files .current ".py" (.directory thicket) = paths
      ∧ ∃ before after, paths = before ++ after
        ∧ paths ++ [Path.current.child "z.py"] = before ++ [Path.current.child "z.py"] ++ after := by
  intro files paths
  let later : FileSystem := ⟨.directory (thicket ++ [("z.py", .file [])]), []⟩
  have hOrderly : files.root.Orderly :=
    Entry.orderly_directory (by decide +kernel) (by decide) orderly_of_mem_thicket
  have hLaterOrderly : later.root.Orderly := by
    refine Entry.orderly_directory (by decide +kernel) (by decide) fun entry hEntry => ?_
    rcases List.mem_append.mp hEntry with hOld | hNew
    · exact orderly_of_mem_thicket entry hOld
    · obtain rfl := List.mem_singleton.mp hNew
      exact Entry.orderly_of_isLeaf (Entry.isLeaf_file []) (by simp)
  have hFind : files.find .current = .ok (.present [] (.directory thicket)) := rfl
  have hSources : sources files .current ".py" = .ok paths :=
    sources_of_pairwise hFind (by decide +kernel) (by decide +kernel)
  have hLater : sources later .current ".py" = .ok (paths ++ [Path.current.child "z.py"]) :=
    sources_of_pairwise (show later.find .current = .ok (.present [] _) from rfl)
      (by decide +kernel) (by decide +kernel)
  have hMissing : files.root.kind? ([] ++ ["z.py"]) = none := rfl
  have hPut : files.root.put ([] ++ ["z.py"]) (.file []) = later.root := rfl
  have hAdded : Added files ([] ++ ["z.py"]) [] later := by
    refine ⟨⟨rfl, fun place => ?_, Or.inl hMissing⟩, hMissing⟩
    rw [← hPut, Entry.kind?_put (Entry.isLeaf_file []) rfl (by rw [hMissing]; simp)]
    rfl
  have hNone (path : Path) :
      ¬Dangles files .current (.directory thicket) ([] ++ ["z.py"]) path := by
    rintro ⟨⟨names, text, rfl, hAt⟩, parent, name, -, hAbsent⟩
    have hSome : names ≠ [] := by
      rintro rfl
      cases hAt
    have hMem := (Entry.mem_descendants_iff hOrderly.distinct).mpr ⟨hSome, hAt⟩
    obtain ⟨rfl, -⟩ : names = ["l.py"] ∧ text = "b/x.py" := by
      simpa [files, thicket, Entry.descendants, Entry.listed] using hMem
    have hFile : files.isFile (Path.current.below ["l.py"]) = .ok true := by decide +kernel
    obtain ⟨goal, content, hPresent⟩ := isFile_eq_true.mp hFile
    simp [hPresent] at hAbsent
  have hFound := (sources_walk files .current ".py" hOrderly rfl hFind).found paths hSources
  have hGrown := hFound.grown later ["z.py"] [] hAdded hLaterOrderly _ hLater
  exact ⟨hFound.walked.symm, hGrown.inserted hNone⟩

/-- Nothing is found where a link leads to a name that is too long. -/
theorem sources_of_long_link {target : String} (hTarget : IsName target)
    (hLong : longestName < target.utf8ByteSize) :
    ∃ trouble, sources ⟨.directory [("r", .directory [("a.py", .file []), ("l", .link target)])],
      []⟩ (.ofString "r") ".py" = .error trouble := by
  let tree : Entry := .directory [("r", .directory [("a.py", .file []), ("l", .link target)])]
  let path : Path := ⟨.here, ["r", "l"]⟩
  have hFind : (FileSystem.mk tree []).find path = .error .nameTooLong := by
    obtain ⟨onLink, hWalk⟩ := exists_walkWith tree .seeing 39
    have hFollow : walk tree .seeing mostLinks [] ["r", "l"]
        = walk tree .seeing 39 (if target.startsWith "/" then [] else ["r"])
          (targetParts target ++ []) := if_neg hTarget.nonempty
    rw [find, findFor, show refuse? path = none by decide +kernel]
    refine hFollow.trans ?_
    rw [targetParts_of_isName hTarget, hWalk]
    exact (walkWith_name _ _ _ hTarget (by simp)).trans (if_pos hLong)
  rw [show Path.ofString "r" = ⟨.here, ["r"]⟩ by decide +kernel]
  exact (Barred.entryUnasked rfl (.tail _ (.head _)) hFind).sources ".py"

/-- With a link to a name that is too long nothing is found, and with a link to a file that is missing
that file adds two sources. -/
theorem sources_upset_by_links :
    let long := Entry.link (String.ofList (List.replicate 256 'x'))
    let root : Path := .ofString "r"
    (∃ trouble, sources ⟨.directory [("r", .directory [("a.py", .file []), ("l", long)])], []⟩ root
      ".py" = .error trouble)
    ∧ sources ⟨.directory [("r", .directory [("b.py", .link "a.py")])], []⟩ root ".py" = .ok []
    ∧ sources ⟨.directory [("r", .directory [("a.py", .file []), ("b.py", .link "a.py")])], []⟩ root
      ".py" = .ok [root.child "a.py", root.child "b.py"] := by
  have hName : IsName (String.ofList (List.replicate 256 'x')) :=
    ⟨⟨by decide +kernel, by decide +kernel, by rw [String.toList_ofList]; decide⟩,
      by decide +kernel⟩
  refine ⟨sources_of_long_link hName (by decide +kernel), by decide +kernel, ?_⟩
  exact sources_of_pairwise rfl (by decide +kernel) (by decide +kernel)

end SyntaxSurvey.Discovery
