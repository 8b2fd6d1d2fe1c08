import SyntaxSurvey.Proofs.Text.Lines
import SyntaxSurvey.Text.Quoted

/-! Texts on one line. No character of such a text ends a line, in the wide sense in which lines are
told apart. What is shown of a longer text is one of its lines, and what is shown in quotes has its
line breaks escaped. -/

namespace SyntaxSurvey.Text

/-- No character of a text ends a line. -/
def Unbroken (cs : List Char) : Prop :=
  ∀ c ∈ cs, isLineBreak c = false

instance (cs : List Char) : Decidable (Unbroken cs) :=
  List.decidableBAll (isLineBreak · = false) cs

variable {cs ds line : List Char} {c quote : Char} {s : String}

@[simp]
theorem unbroken_nil : Unbroken [] :=
  nofun

@[simp]
theorem unbroken_cons : Unbroken (c :: cs) ↔ isLineBreak c = false ∧ Unbroken cs :=
  List.forall_mem_cons

@[simp]
theorem unbroken_append : Unbroken (cs ++ ds) ↔ Unbroken cs ∧ Unbroken ds :=
  List.forall_mem_append

/-- Characters that are worded without line breaks make a wording without any. -/
theorem unbroken_flatMap {f : Char → List Char} (h : ∀ c ∈ cs, Unbroken (f c)) :
    Unbroken (cs.flatMap f) := by
  intro d hMem
  obtain ⟨c, hChar, hPart⟩ := List.mem_flatMap.mp hMem
  exact h c hChar d hPart

theorem Unbroken.of_subset (h : Unbroken ds) (hSubset : cs ⊆ ds) : Unbroken cs :=
  fun c hMem => h c (hSubset hMem)

/-- Texts that are put one after the other are on one line if and only if each is, and the text
between them where there are two. -/
theorem unbroken_intercalate {separator : List Char} (hSeparator : Unbroken separator)
    {pieces : List (List Char)} :
    Unbroken (separator.intercalate pieces) ↔ ∀ piece ∈ pieces, Unbroken piece := by
  induction pieces with
  | nil => simp [List.intercalate]
  | cons piece pieces ih =>
      cases pieces with
      | nil => simp [List.intercalate]
      | cons other others =>
          rw [List.intercalate_cons_cons, unbroken_append, unbroken_append, ih,
            List.forall_mem_cons]
          simp [hSeparator]

/-- No line of a text has a line break in it. -/
theorem unbroken_of_mem_lines (h : line ∈ lines cs) : Unbroken line := by
  induction cs using lines.induct generalizing line with
  | case1 => simp [lines] at h
  | case2 rest ih =>
      rw [lines] at h
      rcases List.mem_cons.mp h with rfl | hLater
      · exact unbroken_nil
      · exact ih hLater
  | case3 d rest hPair hBreak ih =>
      rw [lines.eq_3 _ _ hPair, if_pos hBreak] at h
      rcases List.mem_cons.mp h with rfl | hLater
      · exact unbroken_nil
      · exact ih hLater
  | case4 d rest hPair hBreak hNone ih =>
      rw [lines.eq_3 _ _ hPair, if_neg hBreak, hNone] at h
      obtain rfl := List.mem_singleton.mp h
      simpa using hBreak
  | case5 d rest hPair hBreak first others hSome ih =>
      rw [lines.eq_3 _ _ hPair, if_neg hBreak, hSome] at h
      rw [hSome] at ih
      rcases List.mem_cons.mp h with rfl | hLater
      · exact unbroken_cons.mpr ⟨by simpa using hBreak, ih (List.mem_cons_self ..)⟩
      · exact ih (List.mem_cons_of_mem _ hLater)

/-- A text that ends with a line feed has one line if and only if nothing else in it ends a line. -/
theorem lines_concat_eq_singleton_iff : lines (cs ++ ['\n']) = [cs] ↔ Unbroken cs := by
  constructor
  · intro hOne
    exact unbroken_of_mem_lines (hOne ▸ List.mem_singleton_self cs)
  · intro h
    induction cs with
    | nil => rfl
    | cons c rest ih =>
        obtain ⟨hFirst, hRest⟩ := unbroken_cons.mp h
        have hPair : ∀ later, c = '\r' → rest ++ ['\n'] = '\n' :: later → False := by
          rintro later rfl -
          exact absurd hFirst (by decide)
        rw [List.cons_append, lines.eq_3 _ _ hPair, if_neg (by simp [hFirst]), ih hRest]

/-- A text that does not start with a line break has its first character in its first line. -/
theorem exists_head?_lines (rest : List Char) (hInside : isLineBreak c = false) :
    ∃ line, (lines (c :: rest)).head? = some (c :: line) := by
  have hPair : ∀ later, c = '\r' → rest = '\n' :: later → False := by
    rintro later rfl -
    exact absurd hInside (by decide)
  rw [lines.eq_3 _ _ hPair, if_neg (by simp [hInside])]
  split
  · exact ⟨[], rfl⟩
  · exact ⟨_, rfl⟩

/-- Nothing is left of a text if and only if all of it is white space. -/
theorem trim_eq_nil_iff : trim cs = [] ↔ ∀ c ∈ cs, isBlank c = true := by
  constructor
  · intro hNil c hMem
    cases hInk : isBlank c with
    | true => rfl
    | false =>
        obtain ⟨last, hLast, -⟩ := exists_getLast?_trim ⟨c, hMem, hInk⟩
        simp [hNil] at hLast
  · intro hBlank
    have hStart : trimStart cs = [] := List.dropWhile_eq_nil_iff.mpr hBlank
    rw [trim, hStart]
    rfl

/-- What is left of a text starts with a character that is not white space. -/
theorem isBlank_of_trim_eq_cons {rest : List Char} (h : trim cs = c :: rest) :
    isBlank c = false := by
  have hPrefix : trim cs <+: trimStart cs := by
    rw [← List.reverse_reverse (trimStart cs), trim, List.reverse_prefix]
    exact List.dropWhile_suffix isBlank
  obtain ⟨tail, hTail⟩ := hPrefix
  have hDrop : cs.dropWhile isBlank = c :: (rest ++ tail) := by
    rw [← List.cons_append, ← h]
    exact hTail.symm
  have hNotNil : cs.dropWhile isBlank ≠ [] := by simp [hDrop]
  simpa [hDrop] using List.head_dropWhile_not isBlank hNotNil

/-- A text has no first line exactly if it is blank. -/
theorem firstLine?_eq_none_iff : firstLine? s = none ↔ ∀ c ∈ s.toList, isBlank c = true := by
  rw [firstLine?, Option.map_eq_none_iff, List.head?_eq_none_iff, ← trim_eq_nil_iff]
  constructor
  · intro hNone
    cases hTrim : trim s.toList with
    | nil => rfl
    | cons c rest =>
        have hInside := isLineBreak_of_not_isBlank (isBlank_of_trim_eq_cons hTrim)
        obtain ⟨line, hLine⟩ := exists_head?_lines rest hInside
        simp [← hTrim, hNone] at hLine
  · intro hNil
    rw [hNil, lines]

/-- What is shown of a text as its first line is not empty, and it is one line. -/
theorem unbroken_of_firstLine? {first : String} (h : firstLine? s = some first) :
    first ≠ "" ∧ Unbroken first.toList := by
  obtain ⟨line, hLine, rfl⟩ := Option.map_eq_some_iff.mp h
  rw [String.toList_ofList]
  refine ⟨?_, unbroken_of_mem_lines (List.mem_of_head? hLine)⟩
  cases hTrim : trim s.toList with
  | nil => simp [hTrim, lines] at hLine
  | cons c rest =>
      have hInside := isLineBreak_of_not_isBlank (isBlank_of_trim_eq_cons hTrim)
      obtain ⟨later, hFirst⟩ := exists_head?_lines rest hInside
      rw [hTrim, hFirst] at hLine
      obtain rfl := Option.some.inj hLine
      rw [Ne, ← String.toList_inj, String.toList_ofList]
      simp

theorem lastLine?_eq_none_iff : lastLine? s = none ↔ ∀ c ∈ s.toList, isBlank c = true := by
  constructor
  · intro hNone c hMem
    cases hInk : isBlank c with
    | true => rfl
    | false =>
        obtain ⟨line, hLine, -⟩ := exists_lastLine? ⟨c, hMem, hInk⟩
        simp [hNone] at hLine
  · intro hBlank
    rw [lastLine?, trim_eq_nil_iff.mpr hBlank, lines]
    rfl

/-- What is shown of a text as its last line is not empty, and it is one line. -/
theorem unbroken_of_lastLine? {last : String} (h : lastLine? s = some last) :
    last ≠ "" ∧ Unbroken last.toList := by
  constructor
  · rintro rfl
    have hInk : ∃ c ∈ s.toList, isBlank c = false := by
      by_contra hBlank
      have hNone : lastLine? s = none :=
        lastLine?_eq_none_iff.mpr fun c hMem => by
          simpa using fun hInk => hBlank ⟨c, hMem, hInk⟩
      simp [hNone] at h
    obtain ⟨line, hLine, c, hMem, -⟩ := exists_lastLine? hInk
    obtain rfl : line = "" := Option.some.inj (hLine.symm.trans h)
    simp at hMem
  · obtain ⟨line, hLine, rfl⟩ := Option.map_eq_some_iff.mp h
    rw [String.toList_ofList]
    exact unbroken_of_mem_lines (List.mem_of_getLast? hLine)

theorem unbroken_toDigits (n : Nat) : Unbroken (Nat.toDigits 10 n) := by
  intro c hMem
  have hDigit := Char.isDigit_iff_toNat.mp
    (Nat.isDigit_of_mem_toDigits (by decide) (by decide) hMem)
  rw [← Bool.not_eq_true, isLineBreak, lineBreakRanges, Ranges.covers]
  simp only [List.any_cons, List.any_nil, Bool.or_false, Bool.or_eq_true, Bool.and_eq_true,
    decide_eq_true_eq]
  have hZero : '0'.toNat = 48 := rfl
  have hNine : '9'.toNat = 57 := rfl
  omega

@[simp]
theorem unbroken_natural (n : Nat) : Unbroken (toString n).toList := by
  rw [Nat.toString_eq_ofList_toDigits, String.toList_ofList]
  exact unbroken_toDigits n

@[simp]
theorem unbroken_integer (n : Int) : Unbroken (toString n).toList := by
  rw [Int.toString_eq_repr, Int.repr_eq_if]
  split
  · rw [Nat.toList_repr]
    exact unbroken_toDigits _
  · rw [String.toList_append, Nat.toList_repr]
    exact unbroken_append.mpr ⟨by decide, unbroken_toDigits _⟩

/-- Whatever ends a line is not shown as it is. -/
theorem isPrintable_of_isLineBreak (h : isLineBreak c = true) : isPrintable c = false := by
  have hPoint : c.toNat ∈ [0x0a, 0x0b, 0x0c, 0x0d, 0x1c, 0x1d, 0x1e, 0x85, 0x2028, 0x2029] := by
    simp only [isLineBreak, lineBreakRanges, Ranges.covers, List.any_cons, List.any_nil,
      Bool.or_false, Bool.or_eq_true, Bool.and_eq_true, decide_eq_true_eq] at h
    simp only [List.mem_cons, List.not_mem_nil, or_false]
    omega
  have hNone : ∀ point ∈ [0x0a, 0x0b, 0x0c, 0x0d, 0x1c, 0x1d, 0x1e, 0x85, 0x2028, 0x2029],
      printableRanges.covers point = false := by decide +kernel
  exact hNone c.toNat hPoint

/-- Digits are no line breaks. -/
theorem unbroken_hexDigits (width n : Nat) : Unbroken (hexDigits width n) := by
  induction width generalizing n with
  | zero => exact unbroken_nil
  | succ width ih =>
      have hDigit : ∀ digit < 16, isLineBreak (Nat.digitChar digit) = false := by decide
      rw [hexDigits, unbroken_append, unbroken_cons]
      exact ⟨ih _, hDigit _ (Nat.mod_lt _ (by decide)), unbroken_nil⟩

/-- A character between quotes never ends a line. -/
theorem unbroken_escapeChar (hQuote : isLineBreak quote = false) :
    Unbroken (escapeChar quote c) := by
  have hMark : isLineBreak '\\' = false := by decide
  have hNumber {letter : Char} (hLetter : isLineBreak letter = false) (width n : Nat) :
      Unbroken ('\\' :: letter :: hexDigits width n) :=
    unbroken_cons.mpr ⟨hMark, unbroken_cons.mpr ⟨hLetter, unbroken_hexDigits width n⟩⟩
  rw [escapeChar]
  split
  · rename_i hEscaped
    rcases Bool.or_eq_true_iff.mp hEscaped with hSlash | hSame
    · rw [beq_iff_eq.mp hSlash]
      decide
    · rw [beq_iff_eq.mp hSame]
      simp [hMark, hQuote]
  split
  · decide
  split
  · decide
  split
  · decide
  split
  · rename_i hShown
    have hInside : isLineBreak c = false :=
      Bool.eq_false_iff.mpr fun hBreak => by simp [isPrintable_of_isLineBreak hBreak] at hShown
    simpa using hInside
  split
  · exact hNumber (by decide) _ _
  split
  · exact hNumber (by decide) _ _
  · exact hNumber (by decide) _ _

/-- A text in quotes is one line, whatever the text is. -/
@[simp]
theorem unbroken_quoted (s : String) : Unbroken (quoted s).toList := by
  have hQuote : isLineBreak (quoteFor s.toList) = false := by
    rw [quoteFor]
    split <;> decide
  rw [quoted]
  simp only [String.toList_ofList, List.cons_append, unbroken_cons, unbroken_append, hQuote,
    unbroken_nil, and_true, true_and]
  exact unbroken_flatMap fun c _ => unbroken_escapeChar hQuote

end SyntaxSurvey.Text
