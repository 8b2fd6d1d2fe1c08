import SyntaxSurvey.Path

/-! The normal form of paths. What `Path.ofString` returns is in normal form, and a path in normal
form is read back from its written form; nothing is said of what a path denotes. -/

namespace SyntaxSurvey.Path

/-- A component that a normal form may have: it is written between separators and is not dropped. -/
structure IsPart (part : String) : Prop where
  nonempty : part ≠ ""
  notSelf : part ≠ "."
  unsplit : '/' ∉ part.toList

instance (part : String) : Decidable (IsPart part) :=
  decidable_of_iff (part ≠ "" ∧ part ≠ "." ∧ '/' ∉ part.toList)
    ⟨fun h => ⟨h.1, h.2.1, h.2.2⟩, fun h => ⟨h.nonempty, h.notSelf, h.unsplit⟩⟩

def Normal (p : Path) : Prop :=
  ∀ part ∈ p.parts, IsPart part

theorem IsPart.toList_ne_nil {part : String} (h : IsPart part) : part.toList ≠ [] := by
  intro hNil
  exact h.nonempty (by simpa using hNil)

theorem IsPart.isComponent {part : String} (h : IsPart part) : isComponent part.toList = true := by
  have hNotSelf : part.toList ≠ ['.'] := fun hDot => h.notSelf (String.toList_injective hDot)
  simp [Path.isComponent, h.toList_ne_nil, hNotSelf]

theorem splitSlash_eq_splitOn (cs : List Char) : splitSlash cs = cs.splitOn '/' := by
  induction cs with
  | nil => rfl
  | cons c rest ih =>
      rw [splitSlash, List.splitOn_cons_eq_if_modifyHead, ih]
      by_cases hSlash : c = '/'
      · simp [hSlash]
      · have hSome : rest.splitOn '/' ≠ [] := List.splitOn_ne_nil _ _
        simp only [hSlash, if_false, beq_iff_eq]
        cases hPieces : rest.splitOn '/' with
        | nil => exact absurd hPieces hSome
        | cons piece others => rfl

theorem slash_not_mem_of_mem_splitSlash {cs piece : List Char} (hPiece : piece ∈ splitSlash cs) :
    '/' ∉ piece := by
  induction cs generalizing piece with
  | nil =>
      simp only [splitSlash, List.mem_singleton] at hPiece
      simp [hPiece]
  | cons c rest ih =>
      rw [splitSlash] at hPiece
      by_cases hSlash : c = '/'
      · simp only [hSlash, if_true, List.mem_cons] at hPiece
        rcases hPiece with rfl | hRest
        · simp
        · exact ih hRest
      · simp only [hSlash, if_false] at hPiece
        have hHead : '/' ≠ c := fun hEq => hSlash hEq.symm
        cases hPieces : splitSlash rest with
        | nil =>
            simp only [hPieces, List.mem_singleton] at hPiece
            simp [hPiece, hHead]
        | cons first others =>
            simp only [hPieces, List.mem_cons] at hPiece ih
            rcases hPiece with rfl | hOther
            · simp [hHead, ih (Or.inl rfl)]
            · exact ih (Or.inr hOther)

/-- The text that names in normal form are written as splits into them again. -/
theorem filter_splitSlash_intercalate {parts : List String} (hParts : ∀ part ∈ parts, IsPart part) :
    (splitSlash (['/'].intercalate (parts.map String.toList))).filter isComponent
      = parts.map String.toList := by
  have hKept : (parts.map String.toList).filter isComponent = parts.map String.toList := by
    rw [List.filter_eq_self]
    intro piece hPiece
    obtain ⟨part, hPart, rfl⟩ := List.mem_map.mp hPiece
    exact (hParts part hPart).isComponent
  by_cases hNil : parts = []
  · subst hNil
    rfl
  · rw [splitSlash_eq_splitOn, List.splitOn_intercalate '/' ?_ (by simpa using hNil), hKept]
    intro piece hPiece
    obtain ⟨part, hPart, rfl⟩ := List.mem_map.mp hPiece
    exact (hParts part hPart).unsplit

/-- What names in normal form are written as does not begin with a separator. -/
theorem head?_intercalate_ne {parts : List String} (hParts : ∀ part ∈ parts, IsPart part) :
    (['/'].intercalate (parts.map String.toList)).head? ≠ some '/' := by
  cases parts with
  | nil => simp
  | cons part rest =>
      have hPart := hParts part (by simp)
      have hHead : part.toList.head? ≠ some '/' :=
        fun hSlash => hPart.unsplit (List.mem_of_head? hSlash)
      cases hChars : part.toList with
      | nil => exact absurd hChars hPart.toList_ne_nil
      | cons c others =>
          rw [hChars] at hHead
          cases rest with
          | nil => simpa [hChars] using hHead
          | cons second more => simpa [hChars, List.intercalate_cons_cons] using hHead

/-- A path that is read from a text is normal. -/
theorem normal_ofString (s : String) : (ofString s).Normal := by
  intro part hPart
  simp only [ofString, List.mem_map, List.mem_filter] at hPart
  obtain ⟨piece, ⟨hPiece, hKept⟩, rfl⟩ := hPart
  simp only [isComponent, Bool.and_eq_true, Bool.not_eq_true', List.isEmpty_eq_false_iff, ne_eq,
    bne_iff_ne] at hKept
  constructor
  · intro hEmpty
    exact hKept.1 (by simpa using congrArg String.toList hEmpty)
  · intro hDot
    exact hKept.2 (by simpa using congrArg String.toList hDot)
  · simpa using slash_not_mem_of_mem_splitSlash hPiece

/-- A path is worded by its anchor and its parts with slashes between them. -/
theorem toList_text {p : Path} (hSome : p.anchor ≠ .here ∨ p.parts ≠ []) :
    p.text.toList = p.anchor.text.toList ++ ['/'].intercalate (p.parts.map String.toList) := by
  have hNot : ¬(p.anchor = .here ∧ p.parts = []) := by
    rintro ⟨hHere, hNil⟩
    rcases hSome with hAnchor | hParts
    · exact hAnchor hHere
    · exact hParts hNil
  simp [text, hNot]

/-- An anchor and what follows it, which does not begin with a separator, are told apart. -/
theorem ofString_of_toList {s : String} {anchor : Anchor} {body : List Char}
    (hText : s.toList = anchor.text.toList ++ body) (hHead : body.head? ≠ some '/') :
    ofString s = ⟨anchor, ((splitSlash body).filter isComponent).map String.ofList⟩ := by
  have hSlash : isComponent [] = false := rfl
  cases body with
  | nil =>
      cases anchor <;>
        simp [ofString, hText, Anchor.text, splitSlash, hSlash]
  | cons c rest =>
      have hChar : c ≠ '/' := fun hEq => hHead (by simp [hEq])
      cases anchor with
      | here => simp [ofString, hText, Anchor.text, hChar]
      | root => simp [ofString, hText, Anchor.text, hChar, splitSlash, hSlash]
      | doubleRoot => simp [ofString, hText, Anchor.text, hChar, splitSlash, hSlash]

/-- A normal path is read back from its text. -/
theorem ofString_text {p : Path} (hNormal : p.Normal) : ofString p.text = p := by
  by_cases hCurrent : p.anchor = .here ∧ p.parts = []
  · obtain ⟨anchor, parts⟩ := p
    obtain ⟨rfl, rfl⟩ := hCurrent
    rfl
  · have hSome : p.anchor ≠ .here ∨ p.parts ≠ [] := by
      by_cases hHere : p.anchor = .here
      · exact Or.inr fun hNil => hCurrent ⟨hHere, hNil⟩
      · exact Or.inl hHere
    rw [ofString_of_toList (toList_text hSome) (head?_intercalate_ne hNormal),
      filter_splitSlash_intercalate hNormal, List.map_map]
    simp [Function.comp_def]

/-- Paths in normal form that are written alike are the same. -/
theorem text_injective {p q : Path} (hp : p.Normal) (hq : q.Normal) (hText : p.text = q.text) :
    p = q := by
  rw [← ofString_text hp, ← ofString_text hq, hText]

theorem Normal.below {p : Path} {names : List String} (hNormal : p.Normal)
    (hNames : ∀ name ∈ names, IsPart name) : (p.below names).Normal := by
  intro part hPart
  rcases List.mem_append.mp hPart with hOld | hNew
  · exact hNormal part hOld
  · exact hNames part hNew

theorem Normal.child {p : Path} {name : String} (hNormal : p.Normal) (hName : IsPart name) :
    (p.child name).Normal :=
  hNormal.below (by simpa using hName)

theorem Normal.take {p : Path} (hNormal : p.Normal) (depth : Nat) :
    (Path.mk p.anchor (p.parts.take depth)).Normal :=
  fun part hPart => hNormal part (List.mem_of_mem_take hPart)

theorem Normal.parent {p : Path} (hNormal : p.Normal) : p.parent.Normal :=
  fun part hPart => hNormal part ((List.dropLast_prefix p.parts).subset hPart)

/-- Different names below one path have different texts. -/
theorem child_text_injective {p : Path} {name other : String} (hNormal : p.Normal)
    (hName : IsPart name) (hOther : IsPart other)
    (hText : (p.child name).text = (p.child other).text) : name = other := by
  have hPath := text_injective (hNormal.child hName) (hNormal.child hOther) hText
  simpa [Path.child] using hPath

end SyntaxSurvey.Path
