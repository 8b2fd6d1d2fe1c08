import SyntaxSurvey.Proofs.FileSystem.Orderly
import SyntaxSurvey.Proofs.Image

/-! The directory for images that goes with a root. It stands beside the root if the root is named
by the last component of its path, and below the root if it is not. -/

namespace SyntaxSurvey

open FileSystem (Entry Location IsName)

namespace Path

/-- The last component of a path is a name, and does not lead up. -/
def IsNamed (p : Path) : Prop :=
  p.parts ≠ [] ∧ p.name ≠ ".."

theorem name_mem_parts {p : Path} (hSome : p.parts ≠ []) : p.name ∈ p.parts := by
  rw [name, List.getLast?_eq_some_getLast hSome]
  exact List.getLast_mem hSome

theorem intercalate_concat_append (separator : List Char) (pieces : List (List Char))
    (last more : List Char) :
    separator.intercalate (pieces ++ [last ++ more])
      = separator.intercalate (pieces ++ [last]) ++ more := by
  induction pieces with
  | nil => simp [List.intercalate]
  | cons first rest ih =>
      cases rest with
      | nil => simp [List.intercalate_cons_cons]
      | cons second others =>
          simp only [List.cons_append, List.intercalate_cons_cons] at ih ⊢
          rw [ih, List.append_assoc (first ++ separator)]

end Path

namespace FileSystem

/-- Where a look-up ends, whether something stands there or not. -/
def Found.place : Found → Location
  | .present place _ => place
  | .absent directory name => directory ++ [name]

/-- The last component of a path is that of a link. -/
def IsLink (fs : FileSystem) (path : Path) : Prop :=
  ∃ goal target, fs.findDirectory path.parent = .ok goal
    ∧ fs.root.kind? (goal ++ [path.name]) = some (.link target)

def Beside (place other : Location) : Prop :=
  ∃ parent name otherName, place = parent ++ [name] ∧ other = parent ++ [otherName]
    ∧ otherName ≠ name

def Inside (place other : Location) : Prop :=
  place <+: other ∧ other ≠ place

variable {fs : FileSystem} {root : Path} {place goal : Location} {name : String}
  {entries : List (String × Entry)}

/-- What stands beside a place is not on the way to anything below it. -/
theorem Beside.not_prefix {other rest : Location} (h : Beside place other)
    (hPlace : place <+: rest) : ¬other <+: rest := by
  obtain ⟨parent, name, otherName, rfl, rfl, hNe⟩ := h
  obtain ⟨more, rfl⟩ := hPlace
  intro hOther
  rw [List.append_assoc, List.prefix_append_right_inj] at hOther
  exact hNe (List.cons_prefix_cons.mp hOther).1

/-- What a directory has of some name is found, or it is missing, unless that name is a link or too
long. -/
theorem find_child {parent : Path}
    (hParent : fs.find parent = .ok (.present goal (.directory entries)))
    (hName : IsName name) (hWhole : '\x00' ∉ name.toList)
    (hNoLink : ∀ target, fs.root.kind? (goal ++ [name]) ≠ some (.link target)) :
    fs.find (parent.child name) = .error .nameTooLong
      ∨ ∃ found, fs.find (parent.child name) = .ok found ∧ found.place = goal ++ [name] := by
  obtain ⟨hRefuse, hFollows⟩ := find_eq_ok_iff.mp hParent
  have hNames : ∀ other ∈ [name], '\x00' ∉ other.toList := by simpa using hWhole
  rcases refuse?_below hRefuse hNames with hAllowed | hLong
  · by_cases hShort : name.utf8ByteSize ≤ longestName
    · have hPart : IsEntered name := ⟨hName.notSelf, hName.nonempty, hName.notParent, hShort⟩
      have hFound {found : Found} (hLast : Follows fs.root 0 goal [name] found) :
          fs.find (parent.child name) = .ok found :=
        find_eq_ok_iff.mpr ⟨hAllowed, hFollows.append hLast⟩
      refine Or.inr ?_
      cases hAt : fs.root.at? (goal ++ [name]) with
      | none => exact ⟨_, hFound (.absent hPart hAt), rfl⟩
      | some entry =>
          cases entry with
          | file content => exact ⟨_, hFound (.file hPart hAt), rfl⟩
          | link target => exact absurd (Entry.kind?_eq_link.mpr hAt) (hNoLink target)
          | directory inner =>
              exact ⟨_, hFound (.into hPart (Entry.kind?_eq_directory.mpr ⟨inner, hAt⟩)
                (.here hAt)), rfl⟩
    · obtain ⟨fewer, hWalk⟩ := hFollows.walk_append [name]
      obtain ⟨onLink, hStep⟩ := exists_walkWith fs.root .seeing fewer
      refine Or.inl ?_
      have hPath : fs.find (parent.child name)
          = walk fs.root .seeing mostLinks (fs.start parent) (parent.parts ++ [name]) := by
        rw [find, findFor, show refuse? (parent.child name) = none from hAllowed]
        rfl
      rw [hPath, hWalk, hStep, walkWith_name _ _ _ hName (by simp),
        if_pos (Nat.lt_of_not_le hShort)]
  · exact Or.inl (by rw [find, findFor, show refuse? (parent.child name) = _ from hLong])

/-- Where a directory is, told from the directory before the last component of its path. -/
theorem place_of_find (hHere : fs.Stationed) (hRoot : root.Normal)
    (hFind : fs.find root = .ok (.present place (.directory entries))) :
    ∃ goal inner, fs.find root.parent = .ok (.present goal (.directory inner))
      ∧ (¬fs.IsLink root →
        (root.IsNamed → place = goal ++ [root.name]) ∧ (¬root.IsNamed → place <+: goal)) := by
  obtain ⟨anchor, parts⟩ := root
  rcases List.eq_nil_or_concat parts with rfl | ⟨init, name, rfl⟩
  · exact ⟨place, entries, hFind, fun _ =>
      ⟨fun hNamed => absurd rfl hNamed.1, fun _ => List.prefix_refl _⟩⟩
  · rw [List.concat_eq_append] at *
    have hParent : (Path.mk anchor (init ++ [name])).parent = ⟨anchor, init⟩ := by
      simp [Path.parent]
    have hLast : (Path.mk anchor (init ++ [name])).name = name := by simp [Path.name]
    obtain ⟨goal, fewer, hDirectory, hFollows⟩ := exists_parent hHere hFind
    obtain ⟨inner, hInner⟩ := findDirectory_eq_ok.mp hDirectory
    refine ⟨goal, inner, hParent ▸ hInner, fun hNoLink => ?_⟩
    rw [Path.IsNamed, hLast]
    have hPart := hRoot name (by simp)
    cases hFollows with
    | stay hStay => exact absurd hStay (not_or.mpr ⟨hPart.notSelf, hPart.nonempty⟩)
    | up hRest =>
        refine ⟨fun hNamed => absurd rfl hNamed.2, fun _ => ?_⟩
        cases hRest
        exact List.dropLast_prefix goal
    | into hEntered _ hRest =>
        cases hRest
        exact ⟨fun _ => rfl, fun hNot => absurd ⟨by simp, hEntered.notParent⟩ hNot⟩
    | link _ hAt =>
        have hKind := Entry.kind?_eq_link.mpr hAt
        rw [← hLast] at hKind
        exact absurd ⟨goal, _, hParent ▸ hDirectory, hKind⟩ hNoLink

end FileSystem

namespace Image

variable {root : Path}

/-- What the name of the directory for images starts with. -/
def stem (root : Path) : String :=
  if root.parts = [] then if root.anchor = .here then "." else "" else root.name

/-- The directory beside a root is worded like the root with something behind it. -/
theorem text_child_stem (root : Path) :
    (root.parent.child (stem root ++ directorySuffix)).text = root.text ++ directorySuffix := by
  obtain ⟨anchor, parts⟩ := root
  rcases List.eq_nil_or_concat parts with rfl | ⟨init, name, rfl⟩
  · cases anchor <;> decide +kernel
  · have hSome : init ++ [name] ≠ [] := by simp
    have hName : stem ⟨anchor, init ++ [name]⟩ = name := by simp [stem, Path.name]
    have hParent : (Path.mk anchor (init ++ [name])).parent = ⟨anchor, init⟩ := by
      simp [Path.parent]
    rw [List.concat_eq_append, hName, hParent, Path.child, ← String.toList_inj,
      String.toList_append, Path.toList_text (Or.inr (by simp)), Path.toList_text (Or.inr hSome),
      List.map_append, List.map_append, List.map_singleton, List.map_singleton,
      String.toList_append, Path.intercalate_concat_append, List.append_assoc]

theorem whole_stem (hRefuse : FileSystem.refuse? root = none) :
    '\x00' ∉ (stem root ++ directorySuffix).toList := by
  have hStem : '\x00' ∉ (stem root).toList := by
    rw [stem]
    split
    · split <;> decide
    · exact FileSystem.whole_of_refuse? hRefuse (Path.name_mem_parts ‹_›)
  rw [String.toList_append, List.mem_append, not_or]
  exact ⟨hStem, by decide⟩

/-- The stem of a normal root with something behind it is a name. -/
theorem isName_stem (hRoot : root.Normal) : IsName (stem root ++ directorySuffix) := by
  have hSplit : '/' ∉ (stem root).toList := by
    rw [stem]
    split
    · split <;> decide
    · exact (hRoot _ (Path.name_mem_parts ‹_›)).unsplit
  refine isName_of_length ?_ ?_
  · rw [String.toList_append, List.mem_append, not_or]
    exact ⟨hSplit, by decide⟩
  · rw [String.toList_append, List.length_append]
    exact Nat.le_trans (by decide) (Nat.le_add_left 12 _)

/-- The directory for images stands in the directory before the last component of the root. -/
theorem directoryFor_eq (hRoot : root.Normal) :
    directoryFor root = root.parent.child (stem root ++ directorySuffix) := by
  rw [directoryFor, ← text_child_stem]
  exact Path.ofString_text (hRoot.parent.child (isName_stem hRoot).toIsPart)

/-- The directory for a root has the parent of the root, as far as paths tell. -/
theorem parent_directoryFor (hRoot : root.Normal) : (directoryFor root).parent = root.parent := by
  simp [directoryFor_eq hRoot, Path.parent, Path.child]

theorem name_directoryFor (hRoot : root.Normal) :
    (directoryFor root).name = stem root ++ directorySuffix := by
  simp [directoryFor_eq hRoot, Path.name, Path.child]

/-- The directory for a root has a name of its own. -/
theorem isNamed_directoryFor (hRoot : root.Normal) : (directoryFor root).IsNamed := by
  refine ⟨by simp [directoryFor_eq hRoot, Path.child], ?_⟩
  rw [name_directoryFor hRoot]
  exact (isName_stem hRoot).notParent

/-- The directory for a root with a name has another name. -/
theorem stem_ne_of_isNamed (hNamed : root.IsNamed) :
    stem root = root.name ∧ stem root ++ directorySuffix ≠ root.name := by
  have hStem : stem root = root.name := if_neg hNamed.1
  refine ⟨hStem, fun hSame => ?_⟩
  have hLength := congrArg String.length hSame
  rw [hStem, String.length_append] at hLength
  have hMore : directorySuffix.length = 12 := rfl
  omega

/-- Where the directory for images is, next to where the root is. Both are told from the directory
before the last component of the root. -/
theorem placed_of_parent {place goal : Location}
    (hNamed : root.IsNamed → place = goal ++ [root.name])
    (hNot : ¬root.IsNamed → place <+: goal) :
    (FileSystem.Beside place (goal ++ [stem root ++ directorySuffix]) ↔ root.IsNamed)
      ∧ (¬root.IsNamed →
        FileSystem.Inside place (goal ++ [stem root ++ directorySuffix])) := by
  have hInside (hOther : ¬root.IsNamed) :
      FileSystem.Inside place (goal ++ [stem root ++ directorySuffix]) := by
    have hPlace := hNot hOther
    refine ⟨hPlace.trans (List.prefix_append _ _), fun hSame => ?_⟩
    have hLength := hPlace.length_le
    rw [← hSame, List.length_append] at hLength
    exact absurd hLength (by simp)
  refine ⟨⟨fun hBeside => ?_, fun hIs => ?_⟩, hInside⟩
  · by_contra hOther
    exact hBeside.not_prefix (hInside hOther).1 (List.prefix_refl _)
  · exact ⟨goal, root.name, _, hNamed hIs, rfl, (stem_ne_of_isNamed hIs).2⟩

/-- The directory for images is found in the one before the last component of the root, unless it is a
link, or there is no looking it up. -/
theorem find_directoryFor {fs : FileSystem} {goal : Location} {inner : List (String × Entry)}
    (hRoot : root.Normal) (hRefuse : FileSystem.refuse? root = none)
    (hParent : fs.find root.parent = .ok (.present goal (.directory inner)))
    (hNoLink : ¬fs.IsLink (directoryFor root)) :
    fs.find (directoryFor root) = .error .nameTooLong
      ∨ ∃ found, fs.find (directoryFor root) = .ok found
        ∧ found.place = goal ++ [(directoryFor root).name] := by
  have hFree (target : String) : fs.root.kind? (goal ++ [(directoryFor root).name])
      ≠ some (.link target) := by
    refine fun hKind => hNoLink ⟨goal, target, ?_, hKind⟩
    rw [parent_directoryFor hRoot]
    exact FileSystem.findDirectory_eq_ok.mpr ⟨inner, hParent⟩
  rw [name_directoryFor hRoot] at hFree ⊢
  rw [directoryFor_eq hRoot]
  exact FileSystem.find_child hParent (isName_stem hRoot) (whole_stem hRefuse) hFree

end Image

end SyntaxSurvey
