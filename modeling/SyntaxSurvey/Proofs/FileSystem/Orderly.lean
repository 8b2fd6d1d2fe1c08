import SyntaxSurvey.Proofs.FileSystem.Descendants
import SyntaxSurvey.Proofs.FileSystem.Directories

/-! Directory trees such as a system holds them, with links. What stands below a directory is found
by the path of the directory and the names on the way, unless that path is too long. A new file
changes what is found only by the paths that lead to it. -/

namespace SyntaxSurvey

namespace Path

theorem mem_intercalate {separator piece : List Char} {pieces : List (List Char)} {c : Char}
    (hPiece : piece ∈ pieces) (hChar : c ∈ piece) : c ∈ separator.intercalate pieces := by
  induction pieces with
  | nil => cases hPiece
  | cons first rest ih =>
      cases rest with
      | nil =>
          obtain rfl := List.mem_singleton.mp hPiece
          simpa [List.intercalate] using hChar
      | cons next others =>
          rw [List.intercalate_cons_cons]
          rcases List.mem_cons.mp hPiece with rfl | hRest
          · exact List.mem_append_left _ (List.mem_append_left _ hChar)
          · exact List.mem_append_right _ (ih hRest)

/-- What joined pieces are made of is in the separator or in a piece. -/
theorem mem_of_mem_intercalate {separator : List Char} {pieces : List (List Char)} {c : Char}
    (hChar : c ∈ separator.intercalate pieces) : c ∈ separator ∨ ∃ piece ∈ pieces, c ∈ piece := by
  induction pieces with
  | nil => cases hChar
  | cons first rest ih =>
      cases rest with
      | nil =>
          exact Or.inr ⟨first, List.mem_singleton_self _, by simpa [List.intercalate] using hChar⟩
      | cons next others =>
          rw [List.intercalate_cons_cons, List.mem_append, List.mem_append] at hChar
          rcases hChar with (hFirst | hSeparator) | hRest
          · exact Or.inr ⟨first, List.mem_cons_self, hFirst⟩
          · exact Or.inl hSeparator
          · rcases ih hRest with hSeparator | ⟨piece, hPiece, hMem⟩
            · exact Or.inl hSeparator
            · exact Or.inr ⟨piece, List.mem_cons_of_mem _ hPiece, hMem⟩

/-- The characters of a path are those of its components, but for separators and dots. -/
theorem mem_text_iff {p : Path} {c : Char} (hDot : c ≠ '.') (hSlash : c ≠ '/') :
    c ∈ p.text.toList ↔ ∃ part ∈ p.parts, c ∈ part.toList := by
  by_cases hCurrent : p.anchor = .here ∧ p.parts = []
  · simp [text, hCurrent, hDot]
  have hSome : p.anchor ≠ .here ∨ p.parts ≠ [] := by
    rwa [← not_and_or]
  have hAnchor : c ∉ p.anchor.text.toList := by
    cases p.anchor <;> simp [Anchor.text, hSlash]
  rw [toList_text hSome, List.mem_append, or_iff_right hAnchor]
  constructor
  · intro hMem
    rcases mem_of_mem_intercalate hMem with hSeparator | ⟨piece, hPiece, hChar⟩
    · exact absurd (List.mem_singleton.mp hSeparator) hSlash
    · obtain ⟨part, hPart, rfl⟩ := List.mem_map.mp hPiece
      exact ⟨part, hPart, hChar⟩
  · rintro ⟨part, hPart, hChar⟩
    exact mem_intercalate (List.mem_map_of_mem hPart) hChar

end Path

namespace FileSystem

/-- A name that the system lets a directory list. -/
structure IsFileName (name : String) : Prop extends IsName name where
  short : name.utf8ByteSize ≤ longestName
  whole : '\x00' ∉ name.toList

instance (name : String) : Decidable (IsFileName name) :=
  decidable_of_iff (IsName name ∧ name.utf8ByteSize ≤ longestName ∧ '\x00' ∉ name.toList)
    ⟨fun h => ⟨h.1, h.2.1, h.2.2⟩, fun h => ⟨h.toIsName, h.short, h.whole⟩⟩

theorem IsFileName.isEntered {name : String} (h : IsFileName name) : IsEntered name :=
  ⟨h.notSelf, h.nonempty, h.notParent, h.short⟩

/-- A directory tree, perhaps with links. Every directory lists each of its names once, and nothing
but names that the system allows. -/
structure Entry.Orderly (root : Entry) : Prop where
  named : ∀ place entries, root.at? place = some (.directory entries) →
    ∀ name ∈ entries.map Prod.fst, IsFileName name
  distinct : root.Distinct

namespace Entry

/-- What lies in an orderly tree has the name of a file. -/
theorem Orderly.isFileName {root entry : Entry} {place : Location} {name : String}
    (hOrderly : root.Orderly) (hAt : root.at? (place ++ [name]) = some entry) : IsFileName name := by
  obtain ⟨entries, hParent, hLookup⟩ := directory_of_at?_concat hAt
  exact hOrderly.named place entries hParent name
    (List.mem_map.mpr ⟨(name, entry), mem_of_lookup hLookup, rfl⟩)

/-- All names on the way to something in an orderly tree are names of files. -/
theorem Orderly.forall_isFileName {root entry : Entry} {place names : Location}
    (hOrderly : root.Orderly) (hAt : root.at? (place ++ names) = some entry) :
    ∀ name ∈ names, IsFileName name := by
  intro name hName
  obtain ⟨before, after, rfl⟩ := List.append_of_mem hName
  have hSplit : place ++ (before ++ name :: after) = (place ++ before ++ [name]) ++ after := by
    simp
  rw [hSplit, at?_append] at hAt
  obtain ⟨found, hFound, -⟩ := Option.bind_eq_some_iff.mp hAt
  exact hOrderly.isFileName hFound

theorem orderly_directory {entries : List (String × Entry)}
    (hNames : ∀ name ∈ entries.map Prod.fst, IsFileName name)
    (hDistinct : (entries.map Prod.fst).Nodup)
    (hOrderly : ∀ entry ∈ entries, entry.2.Orderly) : (directory entries).Orderly where
  named place inner hAt := by
    cases place with
    | nil =>
        cases hAt
        exact hNames
    | cons name rest =>
        obtain ⟨child, hLookup, hInner⟩ := Option.bind_eq_some_iff.mp hAt
        exact (hOrderly _ (mem_of_lookup hLookup)).named rest inner hInner
  distinct place inner hAt := by
    cases place with
    | nil =>
        cases hAt
        exact hDistinct
    | cons name rest =>
        obtain ⟨child, hLookup, hInner⟩ := Option.bind_eq_some_iff.mp hAt
        exact (hOrderly _ (mem_of_lookup hLookup)).distinct rest inner hInner

theorem orderly_of_isLeaf {entry : Entry} (hLeaf : entry.IsLeaf)
    (hNot : ∀ entries, entry ≠ .directory entries) : entry.Orderly where
  named place entries hAt := by
    cases place with
    | nil => exact absurd (Option.some.inj hAt) (hNot entries)
    | cons name rest => simp [hLeaf.at?_cons] at hAt
  distinct place entries hAt := by
    cases place with
    | nil => exact absurd (Option.some.inj hAt) (hNot entries)
    | cons name rest => simp [hLeaf.at?_cons] at hAt

end Entry

variable {fs later : FileSystem} {root path : Path} {place goal : Location} {names : List String}
  {entry : Entry} {entries : List (String × Entry)} {content : List UInt8}

/-- The names on the way to something lead to it. -/
theorem follows_of_at? (hOrderly : fs.root.Orderly) (hNoLink : ∀ target, entry ≠ .link target)
    (hAt : fs.root.at? (place ++ names) = some entry) :
    Follows fs.root 0 place names (.present (place ++ names) entry) := by
  induction names generalizing place with
  | nil =>
      rw [List.append_nil] at hAt ⊢
      exact .here hAt
  | cons name rest ih =>
      rw [List.append_cons] at hAt ⊢
      obtain ⟨found, hFound, hBelow⟩ :=
        Option.bind_eq_some_iff.mp ((Entry.at?_append _ _ _).symm.trans hAt)
      have hName := (hOrderly.isFileName hFound).isEntered
      cases found with
      | directory inner =>
          exact .into hName (Entry.kind?_eq_directory.mpr ⟨inner, hFound⟩) (ih hAt)
      | file bytes =>
          cases rest with
          | nil =>
              cases hBelow
              rw [List.append_nil]
              exact .file hName hFound
          | cons next others => cases hBelow
      | link target =>
          cases rest with
          | nil =>
              cases hBelow
              exact absurd rfl (hNoLink target)
          | cons next others => cases hBelow

/-- A path that is not refused has no null character in it. -/
theorem whole_of_refuse? (hRoot : refuse? root = none) {part : String} (hPart : part ∈ root.parts) :
    '\x00' ∉ part.toList := by
  intro hChar
  have hRefused : '\x00' ∈ root.text.toList :=
    (Path.mem_text_iff (by decide) (by decide)).mpr ⟨part, hPart, hChar⟩
  simp [refuse?, hRefused] at hRoot

/-- Whether a path below another one is looked up is a matter of its length. -/
theorem refuse?_below (hRoot : refuse? root = none) (hNames : ∀ name ∈ names, '\x00' ∉ name.toList) :
    refuse? (root.below names) = none ∨ refuse? (root.below names) = some .nameTooLong := by
  have hNull : '\x00' ∉ (root.below names).text.toList := by
    rw [Path.mem_text_iff (by decide) (by decide)]
    rintro ⟨part, hPart, hChar⟩
    rcases List.mem_append.mp hPart with hOld | hNew
    · exact whole_of_refuse? hRoot hOld hChar
    · exact hNames part hNew hChar
  rw [refuse?, if_neg (by simpa using hNull)]
  split
  · exact Or.inr rfl
  · exact Or.inl rfl

/-- What is listed below a directory and is no link is found by its path, unless that is too long. -/
theorem find_below_of_at? (hOrderly : fs.root.Orderly) (hNoLink : ∀ target, entry ≠ .link target)
    (hFind : fs.find root = .ok (.present place (.directory entries)))
    (hAt : fs.root.at? (place ++ names) = some entry)
    (hAsked : fs.find (root.below names) ≠ .error .nameTooLong) :
    fs.find (root.below names) = .ok (.present (place ++ names) entry) := by
  obtain ⟨hRoot, hFollows⟩ := find_eq_ok_iff.mp hFind
  have hRefuse : refuse? (root.below names) = none := by
    have hNames : ∀ name ∈ names, '\x00' ∉ name.toList := fun name hName =>
      (hOrderly.forall_isFileName hAt name hName).whole
    exact (refuse?_below hRoot hNames).resolve_right fun hLong =>
      hAsked (by rw [find, findFor, hLong])
  exact find_eq_ok_iff.mpr ⟨hRefuse, hFollows.append (follows_of_at? hOrderly hNoLink hAt)⟩

section Filled

variable {target : Location} {links : Nat} {parts : List String} {bytes : List UInt8}

/-- Where later there is anything but the new content, no file was written. -/
theorem Updated.ne_of_kind? (h : Updated fs target content later)
    (hKind : later.root.kind? place ≠ some (.file content)) : place ≠ target := by
  rintro rfl
  exact hKind ((h.kind? place).trans (if_pos rfl))

/-- Components that lead to a file lead to it already before another file was made, or to nothing at
the place of that one. -/
theorem Follows.before_filled (h : Follows later.root links place parts (.present goal (.file bytes)))
    (hUpdated : Updated fs target content later) (hNone : fs.root.kind? target = none)
    (hPlace : fs.root.kind? place = some .directory) :
    Follows fs.root links place parts (.present goal (.file bytes))
      ∨ ∃ directory name, directory ++ [name] = target
        ∧ Follows fs.root links place parts (.absent directory name) := by
  have hOld {other : Location} (hOther : other ≠ target) :
      fs.root.kind? other = later.root.kind? other := by
    rw [hUpdated.kind?, if_neg hOther]
  generalize hFound : Found.present goal (.file bytes) = found at h
  induction h with
  | here hAt =>
      cases hFound
      have hOther : goal ≠ target := by
        rintro rfl
        simp [hNone] at hPlace
      rw [hOld hOther, Entry.kind?_eq_file.mpr hAt] at hPlace
      cases hPlace
  | stay hStay _ ih =>
      rcases ih hPlace hFound with hSame | ⟨directory, name, hTarget, hAbsent⟩
      · exact Or.inl (.stay hStay hSame)
      · exact Or.inr ⟨directory, name, hTarget, .stay hStay hAbsent⟩
  | up _ ih =>
      rcases ih (Entry.directory_dropLast hPlace) hFound with
        hSame | ⟨directory, name, hTarget, hAbsent⟩
      · exact Or.inl (.up hSame)
      · exact Or.inr ⟨directory, name, hTarget, .up hAbsent⟩
  | absent => cases hFound
  | into hPart hKind _ ih =>
      rw [← hOld (hUpdated.ne_of_kind? (by simp [hKind]))] at hKind
      rcases ih hKind hFound with hSame | ⟨directory, name, hTarget, hAbsent⟩
      · exact Or.inl (.into hPart hKind hSame)
      · exact Or.inr ⟨directory, name, hTarget, .into hPart hKind hAbsent⟩
  | @file links place part old hPart hAt =>
      cases hFound
      by_cases hTarget : place ++ [part] = target
      · exact Or.inr ⟨place, part, hTarget,
          .absent hPart (Entry.kind?_eq_none.mp (hTarget ▸ hNone))⟩
      · rw [← Entry.kind?_eq_file, ← hOld hTarget, Entry.kind?_eq_file] at hAt
        exact Or.inl (.file hPart hAt)
  | link hPart hAt hSome _ ih =>
      rw [← Entry.kind?_eq_link] at hAt
      rw [← hOld (hUpdated.ne_of_kind? (by simp [hAt])), Entry.kind?_eq_link] at hAt
      rcases ih (Entry.directory_target _ hPlace) hFound with
        hSame | ⟨directory, name, hTarget, hAbsent⟩
      · exact Or.inl (.link hPart hAt hSome hSame)
      · exact Or.inr ⟨directory, name, hTarget, .link hPart hAt hSome hAbsent⟩

/-- A path by which a file is found led to it already before another file was made, or to nothing at
the place of that one. -/
theorem Updated.isFile_before (h : Updated fs target content later) (hHere : fs.Stationed)
    (hNone : fs.root.kind? target = none) (hFile : later.isFile path = .ok true) :
    fs.isFile path = .ok true ∨ ∃ directory name, directory ++ [name] = target
      ∧ fs.find path = .ok (.absent directory name) := by
  obtain ⟨goal, bytes, hFind⟩ := isFile_eq_true.mp hFile
  obtain ⟨hRefuse, hFollows⟩ := find_eq_ok_iff.mp hFind
  rw [h.retains.start_eq] at hFollows
  rcases hFollows.before_filled h hNone (hHere.start path) with
    hSame | ⟨directory, name, hTarget, hAbsent⟩
  · exact Or.inl (isFile_eq_true.mpr ⟨goal, bytes, find_eq_ok_iff.mpr ⟨hRefuse, hSame⟩⟩)
  · exact Or.inr ⟨directory, name, hTarget, find_eq_ok_iff.mpr ⟨hRefuse, hAbsent⟩⟩

end Filled

end FileSystem

end SyntaxSurvey
