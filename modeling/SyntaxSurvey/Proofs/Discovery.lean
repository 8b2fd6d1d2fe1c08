import SyntaxSurvey.Discovery
import SyntaxSurvey.Proofs.FileSystem.Descendants
import SyntaxSurvey.Proofs.FileSystem.Lookup

/-! The sources that are found below a root of a tree without links: each is a file that can be
read, its name has the ending, and none is found twice. -/

open SyntaxSurvey.Path (IsPart)

namespace SyntaxSurvey

namespace FileSystem

/-- What lies in a plain tree is plain. -/
theorem Entry.Plain.of_at? {root entry : Entry} {place : Location} (hPlain : root.Plain)
    (hAt : root.at? place = some entry) : entry.Plain := by
  have hBelow (rest : Location) : root.at? (place ++ rest) = entry.at? rest := by
    rw [Entry.at?_append, hAt]
    rfl
  constructor
  · intro rest target
    have hLinkless := hPlain.linkless (place ++ rest) target
    rwa [Entry.kind?, hBelow] at hLinkless
  · intro rest inner hInner
    exact hPlain.named (place ++ rest) inner (by rw [hBelow, hInner])
  · intro rest inner hInner
    exact hPlain.distinct (place ++ rest) inner (by rw [hBelow, hInner])

/-- The names on the way to something in a plain tree are names. -/
theorem Entry.Plain.isName_of_mem {root entry : Entry} {names : List String} (hPlain : root.Plain)
    (hAt : root.at? names = some entry) : ∀ name ∈ names, IsName name := by
  intro name hName
  obtain ⟨before, after, rfl⟩ := List.append_of_mem hName
  rw [show before ++ name :: after = (before ++ [name]) ++ after by simp, Entry.at?_append] at hAt
  obtain ⟨found, hFound, -⟩ := Option.bind_eq_some_iff.mp hAt
  exact hPlain.isName_of_at?_concat hFound

variable {files : FileSystem} {path : Path}

/-- What lies below a directory is listed by names that a directory can list. -/
theorem mem_entriesBelow {root : Path} {entry : Entry} (hPlain : files.root.Plain)
    (hMem : (path, entry) ∈ files.entriesBelow root) :
    ∃ names, path = root.below names ∧ names ≠ [] ∧ ∀ name ∈ names, IsName name := by
  rw [entriesBelow] at hMem
  cases hFind : files.findDirectory root with
  | error cause => simp [hFind] at hMem
  | ok place =>
      cases hAt : files.root.at? place with
      | none => simp [hFind, hAt] at hMem
      | some directory =>
          simp only [hFind, hAt, List.mem_map, Prod.mk.injEq] at hMem
          obtain ⟨⟨names, found⟩, hFound, rfl, rfl⟩ := hMem
          have hDirectory := hPlain.of_at? hAt
          obtain ⟨hSome, hPlace⟩ := (Entry.mem_descendants_iff hDirectory.distinct).mp hFound
          exact ⟨names, rfl, hSome, hDirectory.isName_of_mem hPlace⟩

/-- Nothing is listed twice below a root. -/
theorem nodup_entriesBelow {root : Path} (hPlain : files.root.Plain) :
    ((files.entriesBelow root).map Prod.fst).Nodup := by
  rw [entriesBelow]
  cases files.findDirectory root with
  | error cause => exact List.nodup_nil
  | ok place =>
      cases hAt : files.root.at? place with
      | none =>
          simp only [hAt]
          exact List.nodup_nil
      | some directory =>
          have hNames := Entry.nodup_descendants (hPlain.of_at? hAt).distinct
          have hBelow : Function.Injective root.below :=
            fun names others hEq => by simpa [Path.below] using hEq
          simpa [hAt, Function.comp_def] using hNames.map hBelow

theorem read_of_isFile (hFile : files.isFile path = .ok true) :
    ∃ place content, files.find path = .ok (.present place (.file content)) := by
  rw [isFile, ask] at hFile
  cases hFind : files.find path with
  | error cause => cases cause <;> simp [hFind] at hFile
  | ok found =>
      cases found with
      | absent directory name => simp [hFind] at hFile
      | present place entry =>
          cases entry with
          | file content => exact ⟨place, content, rfl⟩
          | link target => simp [hFind] at hFile
          | directory entries => simp [hFind] at hFile

end FileSystem

namespace Discovery

open FileSystem (IsName)

variable {files : FileSystem} {root : Path} {suffix : String} {paths : List Path}

/-- Those that are kept are files, in the order in which they were listed. -/
theorem onlyFiles_ok {found : List Path} (hFound : onlyFiles files paths = .ok found) :
    found.Sublist paths ∧ ∀ path ∈ found, files.isFile path = .ok true := by
  induction paths generalizing found with
  | nil =>
      cases hFound
      simp
  | cons path paths ih =>
      rw [onlyFiles] at hFound
      cases hFile : files.isFile path with
      | error failure => simp [hFile] at hFound
      | ok isFile =>
          cases hRest : onlyFiles files paths with
          | error trouble => simp [hFile, hRest] at hFound
          | ok rest =>
              obtain ⟨hSublist, hAll⟩ := ih hRest
              cases isFile with
              | false =>
                  simp only [hFile, hRest, Except.ok.injEq] at hFound
                  exact hFound ▸ ⟨hSublist.cons path, hAll⟩
              | true =>
                  simp only [hFile, hRest, Except.ok.injEq] at hFound
                  exact hFound ▸ ⟨hSublist.cons_cons path, by simpa using ⟨hFile, hAll⟩⟩

/-- Sources are some of the paths below the root, in another order. -/
theorem sources_ok (hSources : sources files root suffix = .ok paths) :
    ∃ found, onlyFiles files ((files.entriesBelow root).map Prod.fst) = .ok found
      ∧ paths.Perm (found.filter (hasSuffix suffix)) := by
  rw [sources] at hSources
  split at hSources
  all_goals try cases hSources
  cases hFound : onlyFiles files ((files.entriesBelow root).map Prod.fst) with
  | error trouble => simp [hFound, Except.map] at hSources
  | ok found =>
      simp only [hFound, Except.map, Except.ok.injEq] at hSources
      exact ⟨found, rfl, hSources ▸ List.mergeSort_perm _ _⟩

/-- A path that was found as a source. -/
structure IsSource (files : FileSystem) (suffix : String) (path : Path) : Prop where
  normal : path.Normal
  isName : IsName path.name
  isFile : ∃ place content, files.find path = .ok (.present place (.file content))
  hasSuffix : hasSuffix suffix path = true

/-- A source lies below the root by names that directories list. -/
theorem below_of_mem (hPlain : files.root.Plain) (hSources : sources files root suffix = .ok paths)
    {path : Path} (hPath : path ∈ paths) :
    ∃ names, path = root.below names ∧ names ≠ [] ∧ ∀ name ∈ names, IsName name := by
  obtain ⟨found, hFound, hPerm⟩ := sources_ok hSources
  obtain ⟨hSublist, -⟩ := onlyFiles_ok hFound
  obtain ⟨hMem, -⟩ := List.mem_filter.mp (hPerm.mem_iff.mp hPath)
  obtain ⟨⟨below, entry⟩, hBelow, rfl⟩ := List.mem_map.mp (hSublist.subset hMem)
  exact FileSystem.mem_entriesBelow hPlain hBelow

/-- What is listed among the sources is found as a file, by a normal path with the ending. -/
theorem isSource_of_mem (hPlain : files.root.Plain) (hRoot : root.Normal)
    (hSources : sources files root suffix = .ok paths) {path : Path} (hPath : path ∈ paths) :
    IsSource files suffix path := by
  obtain ⟨found, hFound, hPerm⟩ := sources_ok hSources
  obtain ⟨-, hFiles⟩ := onlyFiles_ok hFound
  obtain ⟨hMem, hSuffix⟩ := List.mem_filter.mp (hPerm.mem_iff.mp hPath)
  obtain ⟨names, rfl, hSome, hNames⟩ := below_of_mem hPlain hSources hPath
  refine ⟨hRoot.below fun name hName => (hNames name hName).toIsPart, ?_,
    FileSystem.read_of_isFile (hFiles _ hMem), hSuffix⟩
  have hLast : (root.below names).name = names.getLast hSome := by
    simp [Path.name, Path.below, List.getLast?_append, List.getLast?_eq_some_getLast hSome]
  rw [hLast]
  exact hNames _ (List.getLast_mem hSome)

theorem nodup_sources (hPlain : files.root.Plain)
    (hSources : sources files root suffix = .ok paths) : paths.Nodup := by
  obtain ⟨found, hFound, hPerm⟩ := sources_ok hSources
  obtain ⟨hSublist, -⟩ := onlyFiles_ok hFound
  have hBelow : ((files.entriesBelow root).map Prod.fst).Nodup :=
    FileSystem.nodup_entriesBelow hPlain
  exact hPerm.nodup_iff.mpr ((hBelow.sublist hSublist).filter _)

end Discovery

end SyntaxSurvey
