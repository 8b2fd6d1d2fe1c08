import Mathlib.Data.List.TakeWhile
import SyntaxSurvey.Text.Lines

/-! Last lines of texts. Whatever ends a line is white space, so a trimmed text does not end where a
line ends, and its last line is not blank. -/

namespace SyntaxSurvey.Text

/-- Line breaks are blank. -/
theorem isBlank_of_isLineBreak {c : Char} (h : isLineBreak c = true) : isBlank c = true := by
  simp only [isLineBreak, lineBreakRanges, Ranges.covers, List.any_cons, List.any_nil,
    Bool.or_false, Bool.or_eq_true, Bool.and_eq_true, decide_eq_true_eq] at h
  simp only [isBlank, blankRanges, Ranges.covers, List.any_cons, List.any_nil, Bool.or_false,
    Bool.or_eq_true, Bool.and_eq_true, decide_eq_true_eq]
  omega

theorem isLineBreak_of_not_isBlank {c : Char} (h : isBlank c = false) : isLineBreak c = false :=
  Bool.eq_false_iff.mpr fun hBreak => by simp [isBlank_of_isLineBreak hBreak] at h

/-- A text that is not blank ends, once trimmed, in a character that is not blank. -/
theorem exists_getLast?_trim {cs : List Char} (h : ∃ c ∈ cs, isBlank c = false) :
    ∃ c, (trim cs).getLast? = some c ∧ isBlank c = false := by
  obtain ⟨c, hMem, hWord⟩ := h
  have hStart : c ∈ trimStart cs := by
    have hWhole : c ∈ cs.takeWhile isBlank ++ trimStart cs := by
      rwa [trimStart, List.takeWhile_append_dropWhile]
    rcases List.mem_append.mp hWhole with hBlank | hRest
    · simp [List.mem_takeWhile_imp hBlank] at hWord
    · exact hRest
  have hNotAll : trimStart (trimStart cs).reverse ≠ [] := by
    rw [trimStart, Ne, List.dropWhile_eq_nil_iff]
    intro hAll
    simp [hAll c (List.mem_reverse.mpr hStart)] at hWord
  rw [trim, List.getLast?_reverse]
  refine ⟨_, List.head?_eq_some_head hNotAll, ?_⟩
  exact List.head_dropWhile_not _ hNotAll

/-- A text that does not end where a line ends has its last character in its last line. -/
theorem exists_getLast?_lines {cs : List Char} {c : Char} (hLast : cs.getLast? = some c)
    (hInside : isLineBreak c = false) :
    ∃ line, (lines cs).getLast? = some line ∧ line.getLast? = some c := by
  have hFeed : isLineBreak '\n' = true := by decide
  induction cs using lines.induct with
  | case1 => simp at hLast
  | case2 rest ih =>
      cases rest with
      | nil =>
          obtain rfl : '\n' = c := by simpa using hLast
          simp [hFeed] at hInside
      | cons d rest =>
          obtain ⟨line, hLine, hEnd⟩ := ih (by simpa [List.getLast?_cons_cons] using hLast)
          exact ⟨line, by simp [lines, List.getLast?_cons, hLine], hEnd⟩
  | case3 d rest hPair hBreak ih =>
      cases rest with
      | nil =>
          obtain rfl : d = c := by simpa using hLast
          simp [hBreak] at hInside
      | cons e rest =>
          obtain ⟨line, hLine, hEnd⟩ := ih (by simpa [List.getLast?_cons_cons] using hLast)
          refine ⟨line, ?_, hEnd⟩
          rw [lines.eq_3 _ _ hPair, if_pos hBreak, List.getLast?_cons, hLine]
          rfl
  | case4 d rest hPair hBreak hNone ih =>
      cases rest with
      | nil =>
          refine ⟨[d], ?_, hLast⟩
          rw [lines.eq_3 _ _ hPair, if_neg hBreak, hNone]
          rfl
      | cons e rest =>
          obtain ⟨line, hLine, -⟩ := ih (by simpa [List.getLast?_cons_cons] using hLast)
          simp [hNone] at hLine
  | case5 d rest hPair hBreak first others hSome ih =>
      cases rest with
      | nil => simp [lines] at hSome
      | cons e rest =>
          obtain ⟨line, hLine, hEnd⟩ := ih (by simpa [List.getLast?_cons_cons] using hLast)
          rw [hSome] at hLine
          rw [lines.eq_3 _ _ hPair, if_neg hBreak, hSome]
          cases others with
          | nil =>
              obtain rfl : first = line := by simpa using hLine
              exact ⟨d :: first, rfl, by simp [List.getLast?_cons, hEnd]⟩
          | cons other others =>
              exact ⟨line, by simpa [List.getLast?_cons_cons] using hLine, hEnd⟩

/-- A text that is not blank has a last line, and that is not blank. -/
theorem exists_lastLine? {s : String} (h : ∃ c ∈ s.toList, isBlank c = false) :
    ∃ line, lastLine? s = some line ∧ ∃ c ∈ line.toList, isBlank c = false := by
  obtain ⟨c, hLast, hWord⟩ := exists_getLast?_trim h
  obtain ⟨line, hLine, hEnd⟩ := exists_getLast?_lines hLast (isLineBreak_of_not_isBlank hWord)
  refine ⟨String.ofList line, by rw [lastLine?, hLine]; rfl, c, ?_, hWord⟩
  rw [String.toList_ofList]
  exact List.mem_of_getLast? hEnd

end SyntaxSurvey.Text
