import Mathlib.Data.List.Basic
import SyntaxSurvey.Graph.Lexeme

/-! Labels. What a label says is told without the functions that make it, and whatever it says comes
back when its escapes are undone. Escaping is done in one pass here; it is the same as doubling the
backslashes first and guarding the quotes afterwards, with the backslashes before each counted. -/

namespace SyntaxSurvey.Graph

open Text (isBlank collapse words)

/-- The runs of characters that are not blank, in order. -/
def spelt (cs : List Char) : List (List Char) :=
  (cs.splitOnP isBlank).filter fun word => !word.isEmpty

/-- What the label of a token says: its text with one space for each run of blanks between words,
cut to 37 characters and three dots when it has more than 40, or its kind when all of it is blank. -/
def wording (token : Token) : String :=
  let text := [' '].intercalate (spelt token.text.toList)
  if token.text.toList.all isBlank then token.kind
  else if text.length ≤ 40 then String.ofList text
  else String.ofList (text.take 37 ++ ['.', '.', '.'])

/-- What is split off first is all that stands before the first blank. -/
theorem exists_splitOnP_eq (cs : List Char) :
    ∃ others, cs.splitOnP isBlank = cs.takeWhile (fun c => !isBlank c) :: others := by
  induction cs with
  | nil => exact ⟨[], rfl⟩
  | cons c rest ih =>
      obtain ⟨others, hOthers⟩ := ih
      rw [List.splitOnP_cons_eq_if_modifyHead, hOthers, List.takeWhile_cons]
      by_cases hBlank : isBlank c = true
      · exact ⟨rest.takeWhile (fun c => !isBlank c) :: others, by simp [hBlank]⟩
      · exact ⟨others, by simp [hBlank]⟩

theorem spelt_cons (c : Char) (rest : List Char) :
    spelt (c :: rest) = if isBlank c then spelt rest
      else match rest.head? with
        | none => [[c]]
        | some d => if isBlank d then [c] :: spelt rest else (spelt rest).modifyHead (c :: ·) := by
  obtain ⟨others, hOthers⟩ := exists_splitOnP_eq rest
  rw [spelt, spelt, List.splitOnP_cons_eq_if_modifyHead, hOthers]
  by_cases hBlank : isBlank c = true
  · simp [hBlank]
  · cases rest with
    | nil =>
        obtain rfl : others = [] := by simpa using hOthers
        simp [hBlank]
    | cons d more =>
        by_cases hNext : isBlank d = true <;> simp [hBlank, hNext]

theorem spelt_cons_ne_nil {c : Char} (hWord : isBlank c = false) (rest : List Char) :
    spelt (c :: rest) ≠ [] := by
  obtain ⟨others, hOthers⟩ := exists_splitOnP_eq (c :: rest)
  rw [List.takeWhile_cons, hWord] at hOthers
  simp [spelt, hOthers]

/-- There are no words exactly if all is blank. -/
theorem spelt_eq_nil_iff (cs : List Char) : spelt cs = [] ↔ cs.all isBlank = true := by
  induction cs with
  | nil => simp [spelt]
  | cons c rest ih =>
      cases hBlank : isBlank c with
      | true => rw [spelt_cons, hBlank, if_pos rfl, ih, List.all_cons, hBlank, Bool.true_and]
      | false => simp [spelt_cons_ne_nil hBlank, hBlank]

/-- The words that a label is cut into are the words that it is spelt with. -/
theorem words_eq_spelt (cs : List Char) : words cs = spelt cs := by
  induction cs with
  | nil => rfl
  | cons c rest ih =>
      rw [spelt_cons]
      unfold words
      cases hBlank : isBlank c with
      | true => simp [ih]
      | false =>
          cases rest with
          | nil => simp [words]
          | cons d more =>
              simp only [ih, List.head?_cons, Bool.false_eq_true, if_false]
              cases hSpelt : spelt (d :: more) with
              | nil =>
                  cases hNext : isBlank d with
                  | true => simp
                  | false => exact absurd hSpelt (spelt_cons_ne_nil hNext more)
              | cons word others => cases hNext : isBlank d <;> simp [hNext]

theorem not_mem_nil_spelt (cs : List Char) : [] ∉ spelt cs := by
  simp [spelt]

theorem intercalate_spelt_eq_nil_iff (cs : List Char) :
    [' '].intercalate (spelt cs) = [] ↔ cs.all isBlank = true := by
  rw [← spelt_eq_nil_iff]
  constructor
  · intro hNil
    have hWords := not_mem_nil_spelt cs
    cases hSpelt : spelt cs with
    | nil => rfl
    | cons word others =>
        rw [hSpelt] at hNil hWords
        cases others with
        | nil => simp_all
        | cons other more => simp [List.intercalate_cons_cons] at hNil
  · intro hNil
    rw [hNil]
    rfl

/-- The label of a token says what it is meant to say. -/
theorem caption_eq_wording (token : Token) : caption token = wording token := by
  rw [caption, wording, collapse, words_eq_spelt]
  cases hBlank : token.text.toList.all isBlank with
  | true =>
      have hNil := (intercalate_spelt_eq_nil_iff token.text.toList).mpr hBlank
      simp [hNil, clip]
  | false =>
      have hSome : [' '].intercalate (spelt token.text.toList) ≠ [] := by
        rw [ne_eq, intercalate_spelt_eq_nil_iff, hBlank]
        simp
      by_cases hLong : longestLabel < ([' '].intercalate (spelt token.text.toList)).length
      · have hNot : ¬([' '].intercalate (spelt token.text.toList)).length ≤ 40 := Nat.not_le.mpr hLong
        simp [clip, hLong, hNot]
        rfl
      · have hShort : ([' '].intercalate (spelt token.text.toList)).length ≤ 40 := Nat.not_lt.mp hLong
        simp [clip, hLong, hShort, hSome]

def IsOneLine (name : String) : Prop :=
  '\n' ∉ name.toList

instance (name : String) : Decidable (IsOneLine name) :=
  inferInstanceAs (Decidable ('\n' ∉ name.toList))

theorem isBlank_of_mem_splitOnP {cs word : List Char} {c : Char}
    (hWord : word ∈ cs.splitOnP isBlank) (hMem : c ∈ word) : isBlank c = false := by
  induction cs generalizing word with
  | nil =>
      obtain rfl : word = [] := by simpa using hWord
      cases hMem
  | cons first rest ih =>
      rw [List.splitOnP_cons_eq_if_modifyHead] at hWord
      cases hFirst : isBlank first with
      | true =>
          rw [if_pos hFirst, List.mem_cons] at hWord
          rcases hWord with rfl | hRest
          · cases hMem
          · exact ih hRest hMem
      | false =>
          obtain ⟨others, hOthers⟩ := exists_splitOnP_eq rest
          rw [hOthers] at ih hWord
          simp only [hFirst, Bool.false_eq_true, if_false, List.modifyHead_cons, List.mem_cons]
            at hWord
          rcases hWord with rfl | hRest
          · rcases List.mem_cons.mp hMem with rfl | hHead
            · exact hFirst
            · exact ih (List.mem_cons_self ..) hHead
          · exact ih (List.mem_cons_of_mem _ hRest) hMem

/-- Words without line feeds make a line. -/
theorem not_mem_intercalate {words : List (List Char)} (hWords : ∀ word ∈ words, '\n' ∉ word) :
    '\n' ∉ [' '].intercalate words := by
  induction words with
  | nil => simp
  | cons word others ih =>
      have hWord := hWords word (by simp)
      have hOthers := ih fun other hOther => hWords other (List.mem_cons_of_mem _ hOther)
      cases others with
      | nil => simpa using hWord
      | cons other more => simpa [List.intercalate_cons_cons, hWord] using hOthers

/-- What a token says is one line, whatever its text is, if its kind is. -/
theorem isOneLine_wording {token : Token} (hKind : IsOneLine token.kind) :
    IsOneLine (wording token) := by
  have hText : '\n' ∉ [' '].intercalate (spelt token.text.toList) := by
    refine not_mem_intercalate fun word hWord hMem => ?_
    have hBlank := isBlank_of_mem_splitOnP (List.mem_of_mem_filter hWord) hMem
    exact absurd hBlank (by decide)
  rw [wording]
  split
  · exact hKind
  · split
    · simpa [IsOneLine] using hText
    · have hCut : '\n' ∉ ([' '].intercalate (spelt token.text.toList)).take 37 :=
        fun hMem => hText (List.mem_of_mem_take hMem)
      simpa [IsOneLine] using hCut

/-- A text that was escaped for quotes is had back. -/
theorem unescape?_escape (cs : List Char) :
    Lexeme.unescape? (cs.flatMap escapeChar) = some cs := by
  induction cs with
  | nil => rfl
  | cons c rest ih =>
      rw [List.flatMap_cons, escapeChar]
      by_cases hBackslash : c = '\\'
      · subst hBackslash
        simp [Lexeme.unescape?, ih]
      · by_cases hQuote : c = '"'
        · subst hQuote
          simp [Lexeme.unescape?, ih]
        · simp [Lexeme.unescape?, hBackslash, hQuote, ih]

/-- An escaped text does not close before its end. -/
theorem readQuoted?_escape (cs rest : List Char) :
    Lexeme.readQuoted? false (cs.flatMap escapeChar ++ '"' :: rest)
      = some (cs.flatMap escapeChar, rest) := by
  induction cs with
  | nil => rfl
  | cons c more ih =>
      rw [List.flatMap_cons, escapeChar]
      by_cases hBackslash : c = '\\'
      · subst hBackslash
        simp [Lexeme.readQuoted?, ih]
      · by_cases hQuote : c = '"'
        · subst hQuote
          simp [Lexeme.readQuoted?, ih]
        · have hEven : (c == '\\') = false := by simpa using hBackslash
          simp [Lexeme.readQuoted?, hBackslash, hQuote, hEven, ih]

/-- The text with two backslashes for each. -/
def doubled (cs : List Char) : List Char :=
  cs.flatMap fun c => if c = '\\' then ['\\', '\\'] else [c]

/-- The text with a backslash before each quote. Of the backslashes that stand before it already, an
odd one is taken for the guard; so many have just been read. -/
def guarded (run : Nat) : List Char → List Char
  | [] => List.replicate run '\\'
  | c :: rest =>
    if c = '\\' then guarded (run + 1) rest
    else if c = '"' then List.replicate (2 * (run / 2)) '\\' ++ '\\' :: '"' :: guarded 0 rest
    else List.replicate run '\\' ++ c :: guarded 0 rest

/-- After an even number of backslashes, a doubled text is escaped like any other. -/
theorem guarded_doubled_of_even (pairs : Nat) (cs : List Char) :
    guarded (2 * pairs) (doubled cs)
      = List.replicate (2 * pairs) '\\' ++ cs.flatMap escapeChar := by
  induction cs generalizing pairs with
  | nil => simp [doubled, guarded]
  | cons c rest ih =>
      have hZero : guarded 0 (doubled rest) = rest.flatMap escapeChar := by simpa using ih 0
      rw [doubled, List.flatMap_cons, List.flatMap_cons, ← doubled, escapeChar]
      by_cases hBackslash : c = '\\'
      · have hNext : guarded (2 * pairs + 1 + 1) (doubled rest)
            = List.replicate (2 * pairs + 1 + 1) '\\' ++ rest.flatMap escapeChar := ih (pairs + 1)
        simp [hBackslash, guarded, hNext, List.replicate_succ']
      · by_cases hQuote : c = '"'
        · simp [hQuote, guarded, hZero]
        · simp [hBackslash, hQuote, guarded, hZero]

/-- After doubling, the backslashes before a quote are even in number. -/
theorem guarded_doubled (cs : List Char) : guarded 0 (doubled cs) = cs.flatMap escapeChar := by
  simpa using guarded_doubled_of_even 0 cs

theorem doubled_eq_self {cs : List Char} (hNone : '\\' ∉ cs) : doubled cs = cs := by
  induction cs with
  | nil => rfl
  | cons c rest ih =>
      obtain ⟨hHead, hRest⟩ := not_or.mp (fun hMem => hNone (List.mem_cons.mpr hMem))
      rw [doubled, List.flatMap_cons, ← doubled, ih hRest, if_neg fun hEq => hHead hEq.symm]
      rfl

/-- A numeral without a sign has digits, and perhaps a point among them. -/
theorem exists_digits_of_isUnsignedNumeral {cs : List Char} (h : isUnsignedNumeral cs = true) :
    ∃ whole : List Char, (∀ c ∈ whole, c.isDigit = true)
      ∧ (cs = whole ∧ whole ≠ []
        ∨ ∃ fraction : List Char, cs = whole ++ '.' :: fraction
          ∧ (∀ c ∈ fraction, c.isDigit = true) ∧ (whole ≠ [] ∨ fraction ≠ [])) := by
  refine ⟨cs.takeWhile Char.isDigit, List.all_eq_true.mp (List.all_takeWhile ..), ?_⟩
  have hSplit := List.takeWhile_append_dropWhile (p := Char.isDigit) (l := cs)
  rw [isUnsignedNumeral] at h
  split at h
  · rename_i hNone
    rw [hNone, List.append_nil] at hSplit
    refine Or.inl ⟨hSplit.symm, ?_⟩
    rw [hSplit]
    simpa using h
  · rename_i fraction hPoint
    rw [hPoint] at hSplit h
    obtain ⟨hDigits, hSome⟩ := (Bool.and_eq_true _ _).mp h
    refine Or.inr ⟨fraction, hSplit.symm, List.all_eq_true.mp hDigits, ?_⟩
    have hLength := congrArg List.length hSplit
    rw [List.length_append] at hLength
    by_cases hFraction : fraction = []
    · refine Or.inl fun hWhole => ?_
      rw [hWhole] at hLength
      simp [hFraction] at hSome hLength
      omega
    · exact Or.inr hFraction
  · cases h

def IsPlain (c : Char) : Prop :=
  isNameChar c = true ∨ c = '.' ∨ c = '-'

instance (c : Char) : Decidable (IsPlain c) :=
  inferInstanceAs (Decidable (_ ∨ _ ∨ _))

theorem isPlain_of_isDigit {c : Char} (hDigit : c.isDigit = true) : IsPlain c := by
  refine Or.inl ?_
  simp [isNameChar, Char.isAlphanum, hDigit]

/-- A bare word has plain characters only. -/
theorem isPlain_of_isBareWord {cs : List Char} (h : isBareWord cs = true) : ∀ c ∈ cs, IsPlain c := by
  have hUnsigned {digits : List Char} (hNumeral : isUnsignedNumeral digits = true) :
      ∀ c ∈ digits, IsPlain c := by
    obtain ⟨whole, hWhole, ⟨rfl, -⟩ | ⟨fraction, rfl, hFraction, -⟩⟩ :=
      exists_digits_of_isUnsignedNumeral hNumeral
    · exact fun c hc => isPlain_of_isDigit (hWhole c hc)
    · intro c hc
      rcases List.mem_append.mp hc with hLeft | hRight
      · exact isPlain_of_isDigit (hWhole c hLeft)
      · rcases List.mem_cons.mp hRight with rfl | hDigit
        · exact Or.inr (Or.inl rfl)
        · exact isPlain_of_isDigit (hFraction c hDigit)
  rw [isBareWord, Bool.or_eq_true] at h
  rcases h with hName | hNumeral
  · cases cs with
    | nil => simp
    | cons first rest =>
        obtain ⟨hFirst, hRest⟩ := (Bool.and_eq_true _ _).mp hName
        intro c hc
        rcases List.mem_cons.mp hc with rfl | hMem
        · rw [isNameStart, Bool.or_eq_true] at hFirst
          refine Or.inl ?_
          rcases hFirst with hAlpha | hScore
          · simp [isNameChar, Char.isAlphanum, hAlpha]
          · simp [isNameChar, hScore]
        · exact Or.inl (List.all_eq_true.mp hRest c hMem)
  · rw [isNumeral.eq_def] at hNumeral
    split at hNumeral
    · intro c hc
      rcases List.mem_cons.mp hc with rfl | hDigit
      · exact Or.inr (Or.inr rfl)
      · exact hUnsigned hNumeral c hDigit
    · exact hUnsigned hNumeral

theorem not_mem_of_isBareWord {cs : List Char} {c : Char} (hBare : isBareWord cs = true)
    (hPlain : ¬IsPlain c) : c ∉ cs :=
  fun hMem => hPlain (isPlain_of_isBareWord hBare c hMem)

/-- Nothing with a backslash is written bare. -/
theorem isBare_of_mem_backslash {cs : List Char} (hMem : '\\' ∈ cs) : isBare cs = false := by
  have hNot {word : List Char} (hWord : '\\' ∈ word) : isBareWord word = false := by
    rw [Bool.eq_false_iff]
    exact fun hBare => not_mem_of_isBareWord hBare (by decide) hWord
  rw [isBare, hNot hMem, Bool.false_or]
  cases hLast : cs.getLast? == some '\n' with
  | false => rfl
  | true =>
      obtain ⟨init, rfl⟩ := List.getLast?_eq_some_iff.mp (beq_iff_eq.mp hLast)
      have hInit : '\\' ∈ init := by simpa using hMem
      rw [List.dropLast_concat, hNot hInit]
      rfl

/-- Doubling backslashes makes no difference to whether a text is written bare. -/
theorem isBare_doubled (cs : List Char) : isBare (doubled cs) = isBare cs := by
  by_cases hMem : '\\' ∈ cs
  · have hDoubled : '\\' ∈ doubled cs := List.mem_flatMap.mpr ⟨'\\', hMem, by simp⟩
    rw [isBare_of_mem_backslash hMem, isBare_of_mem_backslash hDoubled]
  · rw [doubled_eq_self hMem]

/-- Without a line feed, a text that is written as it is is a name or a numeral, and no word that the
language keeps for itself. -/
theorem isBare_iff {cs : List Char} (hLine : '\n' ∉ cs) : isBare cs = true
    ↔ isBareWord cs = true ∧ keywords.contains (String.ofList (cs.map Char.toLower)) = false := by
  have hLast : (cs.getLast? == some '\n') = false := by
    rw [beq_eq_false_iff_ne]
    exact fun hEq => hLine (List.mem_of_getLast? hEq)
  simp [isBare, hLast]

end SyntaxSurvey.Graph
