import Mathlib.Data.List.DropRight
import SyntaxSurvey.Proofs.Json.Numeral

/-! The reader finds in every text of the extended grammar the value that the text denotes. So a text
denotes at most one value. -/

namespace SyntaxSurvey.Json

open Number (Quantity Binary64)

section Strings

variable {done rest : List Char}

/-- A character that is not escaped stands for itself. -/
theorem readString?_plain {c : Char} (hControl : 0x20 ≤ c.toNat) (hQuote : c ≠ '"')
    (hBackslash : c ≠ '\\') : readString? done (c :: rest) = readString? (c :: done) rest := by
  have hNot : ¬c.toNat < 0x20 := by omega
  simp [readString?, hNot, hBackslash]

/-- A short escape stands for its character. -/
theorem readString?_short {letter c : Char} (hEscape : shortEscape? letter = some c) :
    readString? done ('\\' :: letter :: rest) = readString? (c :: done) rest := by
  have hLetter : letter ≠ 'u' := by
    rintro rfl
    simp [shortEscape?] at hEscape
  simp [readString?, hLetter, hEscape]

theorem single_eq {n : Nat} (h : n < 0xd800 ∨ 0xe000 ≤ n) : single n = Char.ofNat n := by
  have hNot : ¬(0xd800 ≤ n ∧ n < 0xe000) := by omega
  rw [single, if_neg hNot]

theorem pair?_eq_none {n low : Nat} (h : n < 0xd800 ∨ 0xe000 ≤ n) : pair? n low = none := by
  have hNot : ¬(0xd800 ≤ n ∧ n < 0xdc00 ∧ 0xdc00 ≤ low ∧ low < 0xe000) := by omega
  rw [pair?, if_neg hNot]

/-- An escape with digits stands for the character with that code, unless it is half of a pair. -/
theorem readString?_unit {a b c d : Char} {n : Nat} (hDigits : hexUnit? a b c d = some n)
    (hWhole : n < 0xd800 ∨ 0xe000 ≤ n) :
    readString? done ('\\' :: 'u' :: a :: b :: c :: d :: rest)
      = readString? (Char.ofNat n :: done) rest := by
  by_cases hNext : ∃ e f g h others, rest = '\\' :: 'u' :: e :: f :: g :: h :: others
  · -- another escape follows, and might have been the second half of a pair
    obtain ⟨e, f, g, h, others, rfl⟩ := hNext
    rw [readString?]
    cases hOther : hexUnit? e f g h with
    | none => simp only [hDigits, single_eq hWhole]
    | some second => simp only [hDigits, pair?_eq_none hWhole, single_eq hWhole]
  · rw [readString?]
    · simp only [hDigits, single_eq hWhole]
    · intro e f g h others hEq
      exact hNext ⟨e, f, g, h, others, hEq⟩

/-- Two escapes with the halves of a pair stand for the one character that they encode. -/
theorem readString?_pair {a b c d e f g h : Char} {high low : Nat}
    (first : hexUnit? a b c d = some (0xd800 + high)) (highBound : high < 0x400)
    (second : hexUnit? e f g h = some (0xdc00 + low)) (lowBound : low < 0x400) :
    readString? done
        ('\\' :: 'u' :: a :: b :: c :: d :: '\\' :: 'u' :: e :: f :: g :: h :: rest)
      = readString? (Char.ofNat (0x10000 + high * 0x400 + low) :: done) rest := by
  have hPair : pair? (0xd800 + high) (0xdc00 + low)
      = some (Char.ofNat (0x10000 + high * 0x400 + low)) := by
    have hBounds : 0xd800 ≤ 0xd800 + high ∧ 0xd800 + high < 0xdc00
        ∧ 0xdc00 ≤ 0xdc00 + low ∧ 0xdc00 + low < 0xe000 := by omega
    rw [pair?, if_pos hBounds, Nat.add_sub_cancel_left, Nat.add_sub_cancel_left]
  rw [readString?]
  simp only [first, second, hPair]

/-- A quoted text is read up to its quote as the characters that it stands for. -/
theorem readString?_quoted {text cs : List Char} (h : Quoted text cs) (done rest : List Char) :
    readString? done (text ++ '"' :: rest) = some (done.reverse ++ cs, rest) := by
  induction h generalizing done with
  | nil => simp [readString?]
  | plain control quote backslash _ ih =>
      rw [List.cons_append, readString?_plain control quote backslash, ih]
      simp
  | short escape _ ih =>
      rw [List.cons_append, List.cons_append, readString?_short escape, ih]
      simp
  | unit digits whole _ ih =>
      simp only [List.cons_append]
      rw [readString?_unit digits whole, ih]
      simp
  | pair first highBound second lowBound _ ih =>
      simp only [List.cons_append]
      rw [readString?_pair first highBound second lowBound, ih]
      simp

end Strings

/-- Blanks at the front are skipped. -/
theorem skipSpace_append {before : List Char} (hBefore : IsBlank before) (rest : List Char) :
    skipSpace (before ++ rest) = skipSpace rest :=
  List.dropWhile_append_of_pos hBefore

theorem skipSpace_cons {c : Char} (h : isSpace c = false) (rest : List Char) :
    skipSpace (c :: rest) = c :: rest := by
  simp [skipSpace, h]

theorem skipSpace_skipSpace (cs : List Char) : skipSpace (skipSpace cs) = skipSpace cs :=
  List.dropWhile_idempotent _ _

/-- Blanks before a value make no difference. -/
theorem readValue?_skipSpace (budget : Nat) (cs : List Char) :
    readValue? budget (skipSpace cs) = readValue? budget cs := by
  cases budget with
  | zero => simp only [readValue?]
  | succ budget => simp only [readValue?, skipSpace_skipSpace]

theorem readItems?_skipSpace (budget : Nat) (done : List Json) (cs : List Char) :
    readItems? budget done (skipSpace cs) = readItems? budget done cs := by
  cases budget with
  | zero => simp only [readItems?]
  | succ budget => simp only [readItems?, readValue?_skipSpace]

theorem readFields?_skipSpace (budget : Nat) (done : List (String × Json)) (cs : List Char) :
    readFields? budget done (skipSpace cs) = readFields? budget done cs := by
  cases budget with
  | zero => simp only [readFields?]
  | succ budget => simp only [readFields?, skipSpace_skipSpace]

/-- No number goes on with what follows. -/
def Stops (rest : List Char) : Prop :=
  ∀ c others, rest = c :: others → isNumberChar c = false

theorem Stops.append {after rest : List Char} (hAfter : IsBlank after) (hRest : Stops rest) :
    Stops (after ++ rest) := by
  intro c others hEq
  cases after with
  | nil => exact hRest c others hEq
  | cons first more =>
      cases hEq
      have hSpace := hAfter c (by simp)
      simp only [isSpace, Bool.or_eq_true, beq_iff_eq] at hSpace
      rcases hSpace with ((rfl | rfl) | rfl) | rfl <;> rfl

theorem afterWord?_append (word : String) (rest : List Char) :
    afterWord? word (word.toList ++ rest) = some rest := by
  have hPrefix : word.toList.isPrefixOf (word.toList ++ rest) = true := by simp
  rw [afterWord?, if_pos hPrefix, ← String.length_toList, List.drop_left]

/-- The characters of a number are taken up to where it stops. -/
theorem takeWhile_dropWhile_of_stops {text rest : List Char}
    (hText : ∀ c ∈ text, isNumberChar c) (hRest : Stops rest) :
    (text ++ rest).takeWhile isNumberChar = text
      ∧ (text ++ rest).dropWhile isNumberChar = rest := by
  rw [List.takeWhile_append_of_pos hText, List.dropWhile_append_of_pos hText]
  cases rest with
  | nil => simp
  | cons c others => simp [hRest c others rfl]

/-- A numeral begins with a digit, which may have a sign before it. -/
theorem Numeral.exists_text {numeral : Numeral} (h : numeral.WellFormed) :
    ∃ c rest, c.isDigit ∧ (numeral.text = c :: rest ∨ numeral.text = '-' :: c :: rest) := by
  obtain ⟨c, rest, hCons, hDigit⟩ := numeral.exists_body h
  refine ⟨c, rest, hDigit, ?_⟩
  cases hNegative : numeral.negative <;> simp [text, hNegative, hCons]

/-- A numeral is read as its value, since no word begins with a digit or with a sign and a digit. -/
theorem readPlain?_numeral {numeral : Numeral} (h : numeral.WellFormed) {rest : List Char}
    (hRest : Stops rest) :
    readPlain? (numeral.text ++ rest) = some (.number numeral.value, rest) := by
  obtain ⟨hTake, hDrop⟩ := takeWhile_dropWhile_of_stops (numeral.isNumberChar_text h) hRest
  obtain ⟨c, others, hDigit, hText⟩ := numeral.exists_text h
  have hWords : ∀ word ∈ ["null", "true", "false", "NaN", "Infinity", "-Infinity"],
      afterWord? word (numeral.text ++ rest) = none := by
    intro word hMem
    have hNot : ¬word.toList <+: c :: (others ++ rest)
        ∧ ¬word.toList <+: '-' :: c :: (others ++ rest) := by
      simp only [List.mem_cons, List.not_mem_nil, or_false] at hMem
      rcases hMem with rfl | rfl | rfl | rfl | rfl | rfl <;>
        constructor <;> simp [List.cons_prefix_cons] <;> rintro rfl <;> simp at hDigit
    rcases hText with hText | hText
    · rw [hText, afterWord?, if_neg (by simpa using hNot.1)]
    · rw [hText, afterWord?, if_neg (by simpa using hNot.2)]
  simp [readPlain?, hWords, hTake, hDrop, numeral.ofNumberText?_text h]

/-- A character that a word or a numeral may begin with. -/
def IsBare (c : Char) : Bool :=
  !isSpace c && c != '"' && c != '[' && c != ']' && c != '\x7b'

theorem isBare_digit {c : Char} (h : c.isDigit) : IsBare c := by
  simp only [IsBare, isSpace, Bool.and_eq_true, Bool.not_eq_true', Bool.or_eq_false_iff,
    beq_eq_false_iff_ne, bne_iff_ne]
  refine ⟨⟨⟨⟨⟨⟨⟨?_, ?_⟩, ?_⟩, ?_⟩, ?_⟩, ?_⟩, ?_⟩, ?_⟩ <;> rintro rfl <;> simp at h

/-- A numeral begins with a character that begins nothing else. -/
theorem Numeral.isBare_text {numeral : Numeral} (h : numeral.WellFormed) :
    ∃ c rest, numeral.text = c :: rest ∧ IsBare c := by
  obtain ⟨c, rest, hDigit, hText | hText⟩ := numeral.exists_text h
  · exact ⟨c, rest, hText, isBare_digit hDigit⟩
  · exact ⟨'-', _, hText, rfl⟩

theorem Word.isBare {text : List Char} {x : Binary64} (h : Word text x) :
    ∃ c rest, text = c :: rest ∧ IsBare c := by
  cases h with
  | notANumber => exact ⟨'N', _, rfl, rfl⟩
  | infinite => exact ⟨'I', _, rfl, rfl⟩
  | negativeInfinite => exact ⟨'-', _, rfl, rfl⟩

theorem isBare_iff {c : Char} :
    IsBare c ↔ isSpace c = false ∧ c ≠ '"' ∧ c ≠ '[' ∧ c ≠ ']' ∧ c ≠ '\x7b' := by
  simp [IsBare, and_assoc]

/-- The first character of a text that denotes a value is neither white space nor a bracket that
closes. -/
theorem Derives.exists_cons {extended : Bool} {text : List Char} {value : Json}
    (h : Derives extended text value) :
    ∃ c rest, text = c :: rest ∧ isSpace c = false ∧ c ≠ ']' := by
  cases h with
  | null => exact ⟨'n', _, rfl, rfl, by decide⟩
  | bool value =>
      cases value with
      | true => exact ⟨'t', _, rfl, rfl, by decide⟩
      | false => exact ⟨'f', _, rfl, rfl, by decide⟩
  | number hWell =>
      obtain ⟨c, rest, hText, hBare⟩ := Numeral.isBare_text hWell
      obtain ⟨hSpace, -, -, hClose, -⟩ := isBare_iff.mp hBare
      exact ⟨c, rest, hText, hSpace, hClose⟩
  | word _ hWord =>
      obtain ⟨c, rest, hText, hBare⟩ := hWord.isBare
      obtain ⟨hSpace, -, -, hClose, -⟩ := isBare_iff.mp hBare
      exact ⟨c, rest, hText, hSpace, hClose⟩
  | string => exact ⟨'"', _, rfl, rfl, by decide⟩
  | noItems => exact ⟨'[', _, rfl, rfl, by decide⟩
  | items => exact ⟨'[', _, rfl, rfl, by decide⟩
  | noFields => exact ⟨'\x7b', _, rfl, rfl, by decide⟩
  | fields => exact ⟨'\x7b', _, rfl, rfl, by decide⟩

/-- What is written without quotes and brackets is read as a word or a number. -/
theorem readValue?_bare {budget : Nat} {c : Char} {cs rest : List Char} {value : Json}
    (h : IsBare c) (hPlain : readPlain? (c :: cs) = some (value, rest)) :
    readValue? (budget + 1) (c :: cs) = some (value, rest) := by
  obtain ⟨hSpace, hQuote, hBracket, -, hBrace⟩ := isBare_iff.mp h
  rw [readValue?, skipSpace_cons hSpace, ← hPlain]
  split <;> simp_all

theorem readPlain?_null (rest : List Char) :
    readPlain? ("null".toList ++ rest) = some (.null, rest) := by
  rw [readPlain?, afterWord?_append]

theorem readPlain?_bool (value : Bool) (rest : List Char) :
    readPlain? ((if value then "true" else "false").toList ++ rest) = some (.bool value, rest) := by
  cases value <;> rfl

/-- A word for a number without digits is read as that number. -/
theorem readPlain?_word {text : List Char} {x : Binary64} (h : Word text x) (rest : List Char) :
    readPlain? (text ++ rest) = some (.number (.real x), rest) := by
  cases h <;> rfl

theorem readValue?_blank {before : List Char} (hBefore : IsBlank before) (budget : Nat)
    (cs : List Char) : readValue? budget (before ++ cs) = readValue? budget cs := by
  rw [← readValue?_skipSpace, skipSpace_append hBefore, readValue?_skipSpace]

/-- Where items begin is no bracket that closes. -/
theorem DerivesItems.skipSpace_append {extended : Bool} {text : List Char} {items : List Json}
    (h : DerivesItems extended text items) (rest : List Char) :
    ∃ c others, skipSpace (text ++ rest) = c :: others ∧ c ≠ ']' := by
  cases h with
  | last left h right =>
      obtain ⟨c, others, rfl, hSpace, hClose⟩ := h.exists_cons
      simp only [List.append_assoc, Json.skipSpace_append left, List.cons_append]
      exact ⟨c, _, skipSpace_cons hSpace _, hClose⟩
  | more left h right others =>
      obtain ⟨c, others, rfl, hSpace, hClose⟩ := h.exists_cons
      simp only [List.append_assoc, Json.skipSpace_append left, List.cons_append]
      exact ⟨c, _, skipSpace_cons hSpace _, hClose⟩

/-- Fields begin with a quote. -/
theorem DerivesFields.skipSpace_append {extended : Bool} {text : List Char}
    {fields : List (String × Json)} (h : DerivesFields extended text fields) (rest : List Char) :
    ∃ others, skipSpace (text ++ rest) = '"' :: others := by
  cases h with
  | last left =>
      simp only [List.append_assoc, Json.skipSpace_append left, List.cons_append]
      exact ⟨_, skipSpace_cons rfl _⟩
  | more left =>
      simp only [List.append_assoc, Json.skipSpace_append left, List.cons_append]
      exact ⟨_, skipSpace_cons rfl _⟩

/-- Brackets with nothing but blanks between them are an empty list. -/
theorem readValue?_noItems {blank : List Char} (h : IsBlank blank) (budget : Nat)
    (rest : List Char) :
    readValue? (budget + 1) ('[' :: blank ++ [']'] ++ rest) = some (.array [], rest) := by
  have hInner : skipSpace (blank ++ ']' :: rest) = ']' :: rest := by
    rw [skipSpace_append h, skipSpace_cons rfl]
  simp only [List.cons_append, List.append_assoc, List.nil_append]
  rw [readValue?, skipSpace_cons rfl]
  simp only [hInner]

/-- Items in brackets are a list, if they can be read. -/
theorem readValue?_items {extended : Bool} {text : List Char} {items : List Json}
    (h : DerivesItems extended text items) {budget : Nat} {rest : List Char}
    (hRead : readItems? budget [] (text ++ ']' :: rest) = some (items, rest)) :
    readValue? (budget + 1) ('[' :: text ++ [']'] ++ rest) = some (.array items, rest) := by
  obtain ⟨c, others, hInner, hClose⟩ := h.skipSpace_append (']' :: rest)
  rw [← readItems?_skipSpace, hInner] at hRead
  simp only [List.cons_append, List.append_assoc, List.nil_append]
  rw [readValue?, skipSpace_cons rfl]
  simp [hInner, hClose, hRead]

theorem readValue?_noFields {blank : List Char} (h : IsBlank blank) (budget : Nat)
    (rest : List Char) :
    readValue? (budget + 1) ('\x7b' :: blank ++ ['\x7d'] ++ rest) = some (.object [], rest) := by
  have hInner : skipSpace (blank ++ '\x7d' :: rest) = '\x7d' :: rest := by
    rw [skipSpace_append h, skipSpace_cons rfl]
  simp only [List.cons_append, List.append_assoc, List.nil_append]
  rw [readValue?, skipSpace_cons rfl]
  simp only [hInner]

theorem readValue?_fields {extended : Bool} {text : List Char} {fields : List (String × Json)}
    (h : DerivesFields extended text fields) {budget : Nat} {rest : List Char}
    (hRead : readFields? budget [] (text ++ '\x7d' :: rest) = some (fields, rest)) :
    readValue? (budget + 1) ('\x7b' :: text ++ ['\x7d'] ++ rest)
      = some (.object fields, rest) := by
  obtain ⟨others, hInner⟩ := h.skipSpace_append ('\x7d' :: rest)
  rw [← readFields?_skipSpace, hInner] at hRead
  simp only [List.cons_append, List.append_assoc, List.nil_append]
  rw [readValue?, skipSpace_cons rfl]
  simp [hInner, hRead]

/-- A quoted text between quotes is a string. -/
theorem readValue?_string {text cs : List Char} (h : Quoted text cs) (budget : Nat)
    (rest : List Char) :
    readValue? (budget + 1) ('"' :: text ++ ['"'] ++ rest)
      = some (.string (String.ofList cs), rest) := by
  simp only [List.cons_append, List.append_assoc, List.nil_append]
  rw [readValue?, skipSpace_cons rfl]
  simp [readString?_quoted h]

theorem Stops.of_append {after rest : List Char} {c : Char} (hAfter : IsBlank after)
    (hNot : isNumberChar c = false) : Stops (after ++ c :: rest) := by
  apply Stops.append hAfter
  intro other others hEq
  cases hEq
  exact hNot

section Steps

variable {budget : Nat} {before text after cs rest : List Char} {value : Json}

theorem skipSpace_closer {c : Char} (hAfter : IsBlank after) (hSpace : isSpace c = false) :
    skipSpace (after ++ c :: rest) = c :: rest := by
  rw [skipSpace_append hAfter, skipSpace_cons hSpace]

/-- The last item is followed by a bracket. -/
theorem readItems?_last (hBefore : IsBlank before) (hAfter : IsBlank after)
    (hValue : readValue? budget (text ++ (after ++ ']' :: rest))
      = some (value, after ++ ']' :: rest)) (done : List Json) :
    readItems? (budget + 1) done (before ++ text ++ after ++ ']' :: rest)
      = some (done.reverse ++ [value], rest) := by
  have hClose : skipSpace (after ++ ']' :: rest) = ']' :: rest := skipSpace_closer hAfter rfl
  simp only [List.append_assoc]
  rw [readItems?, readValue?_blank hBefore, hValue]
  simp [hClose]

/-- After an item and a comma, items are read on. -/
theorem readItems?_more (hBefore : IsBlank before) (hAfter : IsBlank after)
    (hValue : readValue? budget (text ++ (after ++ ',' :: rest))
      = some (value, after ++ ',' :: rest)) (done : List Json) :
    readItems? (budget + 1) done (before ++ text ++ after ++ ',' :: rest)
      = readItems? budget (value :: done) rest := by
  have hComma : skipSpace (after ++ ',' :: rest) = ',' :: rest := skipSpace_closer hAfter rfl
  simp only [List.append_assoc]
  rw [readItems?, readValue?_blank hBefore, hValue]
  simp [hComma]

variable {quoted key middle inner : List Char}

theorem readFields?_last (hBefore : IsBlank before) (hKey : Quoted quoted key)
    (hMiddle : IsBlank middle) (hInner : IsBlank inner) (hAfter : IsBlank after)
    (hValue : readValue? budget (text ++ (after ++ '\x7d' :: rest))
      = some (value, after ++ '\x7d' :: rest)) (done : List (String × Json)) :
    readFields? (budget + 1) done
        (before ++ '"' :: quoted ++ '"' :: middle ++ ':' :: inner ++ text ++ after
          ++ '\x7d' :: rest)
      = some (done.reverse ++ [(String.ofList key, value)], rest) := by
  have hClose : skipSpace (after ++ '\x7d' :: rest) = '\x7d' :: rest := skipSpace_closer hAfter rfl
  simp only [List.append_assoc, List.cons_append]
  rw [readFields?, skipSpace_closer hBefore rfl]
  simp only [readString?_quoted hKey, skipSpace_closer (c := ':') hMiddle rfl,
    readValue?_blank hInner, hValue, hClose]
  simp

theorem readFields?_more (hBefore : IsBlank before) (hKey : Quoted quoted key)
    (hMiddle : IsBlank middle) (hInner : IsBlank inner) (hAfter : IsBlank after)
    (hValue : readValue? budget (text ++ (after ++ ',' :: rest))
      = some (value, after ++ ',' :: rest)) (done : List (String × Json)) :
    readFields? (budget + 1) done
        (before ++ '"' :: quoted ++ '"' :: middle ++ ':' :: inner ++ text ++ after ++ ',' :: rest)
      = readFields? budget ((String.ofList key, value) :: done) rest := by
  have hComma : skipSpace (after ++ ',' :: rest) = ',' :: rest := skipSpace_closer hAfter rfl
  simp only [List.append_assoc, List.cons_append]
  rw [readFields?, skipSpace_closer hBefore rfl]
  simp only [readString?_quoted hKey, skipSpace_closer (c := ':') hMiddle rfl,
    readValue?_blank hInner, hValue, hComma]
  simp

/-- No value has an empty text. -/
theorem Derives.length_pos {extended : Bool} (h : Derives extended text value) :
    0 < text.length := by
  obtain ⟨c, others, rfl, -⟩ := h.exists_cons
  simp

end Steps

mutual

/-- A value is read, and what follows it is left. One step for each character is enough. -/
theorem readValue?_derives {extended : Bool} {text : List Char} {value : Json} {rest : List Char}
    (hRest : Stops rest) (h : Derives extended text value) {budget : Nat}
    (hBudget : text.length ≤ budget) : readValue? budget (text ++ rest) = some (value, rest) := by
  obtain ⟨budget, rfl⟩ := Nat.exists_eq_add_one.mpr (h.length_pos.trans_le hBudget)
  match h with
  | .null =>
      exact readValue?_bare (c := 'n') rfl (readPlain?_null rest)
  | .bool true =>
      exact readValue?_bare (c := 't') rfl (readPlain?_bool true rest)
  | .bool false =>
      exact readValue?_bare (c := 'f') rfl (readPlain?_bool false rest)
  | .number hWell =>
      obtain ⟨c, others, hText, hBare⟩ := Numeral.isBare_text hWell
      have hPlain := readPlain?_numeral hWell hRest
      rw [hText] at hPlain ⊢
      exact readValue?_bare hBare hPlain
  | .word _ hWord =>
      obtain ⟨c, others, hText, hBare⟩ := hWord.isBare
      have hPlain := readPlain?_word hWord rest
      rw [hText] at hPlain ⊢
      exact readValue?_bare hBare hPlain
  | .string hQuoted =>
      exact readValue?_string hQuoted budget rest
  | .noItems hBlank =>
      exact readValue?_noItems hBlank budget rest
  | .items hItems =>
      simp only [List.length_append, List.length_cons, List.length_nil] at hBudget
      exact readValue?_items hItems (readItems?_derives hItems (by omega) rest [])
  | .noFields hBlank =>
      exact readValue?_noFields hBlank budget rest
  | .fields hFields =>
      simp only [List.length_append, List.length_cons, List.length_nil] at hBudget
      exact readValue?_fields hFields (readFields?_derives hFields (by omega) rest [])

/-- Items that belong to the grammar are read back with a budget above their length. -/
theorem readItems?_derives {extended : Bool} {text : List Char} {items : List Json}
    (h : DerivesItems extended text items) {budget : Nat} (hBudget : text.length < budget)
    (rest : List Char) (done : List Json) :
    readItems? budget done (text ++ ']' :: rest) = some (done.reverse ++ items, rest) := by
  obtain ⟨budget, rfl⟩ := Nat.exists_eq_add_one.mpr (Nat.zero_lt_of_lt hBudget)
  match h with
  | .last left hItem right =>
      simp only [List.length_append] at hBudget
      exact readItems?_last left right
        (readValue?_derives (.of_append right rfl) hItem (by omega)) done
  | .more left hItem right hOthers =>
      rename_i before text after others item items
      simp only [List.length_append, List.length_cons] at hBudget
      have hRead : readItems? budget (item :: done) (others ++ ']' :: rest)
          = some ((item :: done).reverse ++ items, rest) :=
        readItems?_derives hOthers (by omega) rest (item :: done)
      rw [List.append_assoc, List.cons_append, readItems?_more left right
        (readValue?_derives (.of_append right rfl) hItem (by omega)) done, hRead]
      simp

/-- Fields that belong to the grammar are read back with a budget above their length. -/
theorem readFields?_derives {extended : Bool} {text : List Char} {fields : List (String × Json)}
    (h : DerivesFields extended text fields) {budget : Nat} (hBudget : text.length < budget)
    (rest : List Char) (done : List (String × Json)) :
    readFields? budget done (text ++ '\x7d' :: rest) = some (done.reverse ++ fields, rest) := by
  obtain ⟨budget, rfl⟩ := Nat.exists_eq_add_one.mpr (Nat.zero_lt_of_lt hBudget)
  match h with
  | .last left hKey hMiddle hInner hValue right =>
      simp only [List.length_append, List.length_cons] at hBudget
      exact readFields?_last left hKey hMiddle hInner right
        (readValue?_derives (.of_append right rfl) hValue (by omega)) done
  | .more left hKey hMiddle hInner hValue right hOthers =>
      rename_i before quoted key middle inner text after others value fields
      simp only [List.length_append, List.length_cons] at hBudget
      have hRead : readFields? budget ((String.ofList key, value) :: done) (others ++ '\x7d' :: rest)
          = some (((String.ofList key, value) :: done).reverse ++ fields, rest) :=
        readFields?_derives hOthers (by omega) rest ((String.ofList key, value) :: done)
      rw [List.append_assoc, List.cons_append, readFields?_more left hKey hMiddle hInner right
        (readValue?_derives (.of_append right rfl) hValue (by omega)) done, hRead]
      simp

end

/-- What is read in a text is what the text denotes. -/
theorem read?_of_denotes {extended : Bool} {cs : List Char} {value : Json}
    (h : Denotes extended cs value) : read? (String.ofList cs) = some value := by
  obtain ⟨before, text, after, hBefore, hAfter, rfl, hText⟩ := h
  have hEnd : Stops (after ++ []) := by
    apply Stops.append hAfter
    intro c others hNil
    cases hNil
  have hRead : readValue? ((before ++ text ++ after).length + 1) (before ++ text ++ after)
      = some (value, after) := by
    rw [List.append_assoc, readValue?_blank hBefore, ← List.append_nil after]
    exact readValue?_derives hEnd hText (by simp; omega)
  have hSkip : skipSpace after = [] := by
    rw [← List.append_nil after, skipSpace_append hAfter]
    rfl
  rw [read?, String.toList_ofList, hRead]
  simp [hSkip]

/-- A text denotes one value at most. -/
theorem Denotes.unique {extended other : Bool} {cs : List Char} {value second : Json}
    (h : Denotes extended cs value) (hSecond : Denotes other cs second) : value = second := by
  have hValue := read?_of_denotes h
  rw [read?_of_denotes hSecond] at hValue
  exact (Option.some.inj hValue).symm

/-- A value whose text begins with a brace is read whatever follows it, since only objects begin so. -/
theorem readValue?_of_brace {extended : Bool} {cs : List Char} {value : Json}
    (h : Derives extended ('\x7b' :: cs) value) {budget : Nat} (hBudget : cs.length < budget)
    (rest : List Char) : readValue? budget ('\x7b' :: cs ++ rest) = some (value, rest) := by
  obtain ⟨budget, rfl⟩ := Nat.exists_eq_add_one.mpr (Nat.zero_lt_of_lt hBudget)
  generalize hText : '\x7b' :: cs = text at h ⊢
  have hLength : text.length < budget + 2 := by
    rw [← hText, List.length_cons]
    omega
  have hNotBare {c : Char} {others : List Char} (hBare : IsBare c) : text ≠ c :: others := by
    rintro rfl
    exact (isBare_iff.mp hBare).2.2.2.2 (List.cons.inj hText).1.symm
  cases h with
  | null => cases hText
  | bool flag => cases flag <;> cases hText
  | number hWell =>
      obtain ⟨c, others, hNumeral, hBare⟩ := Numeral.isBare_text hWell
      exact absurd hNumeral (hNotBare hBare)
  | word _ hWord =>
      obtain ⟨c, others, hWritten, hBare⟩ := hWord.isBare
      exact absurd hWritten (hNotBare hBare)
  | string hQuoted => cases hText
  | noItems hBlank => cases hText
  | items hItems => cases hText
  | noFields hBlank => exact readValue?_noFields hBlank budget rest
  | fields hFields =>
      simp only [List.length_append, List.length_cons, List.length_nil] at hLength
      exact readValue?_fields hFields (readFields?_derives hFields (by omega) rest [])

/-- No text that begins with a brace denotes a value if it goes on, with something that is not all white
space, to a text that denotes one. -/
theorem Denotes.not_of_append {extended other : Bool} {cs more : List Char} {whole : Json}
    (h : Denotes extended ('\x7b' :: cs ++ more) whole) (hInk : skipSpace more ≠ []) :
    ¬∃ value, Denotes other ('\x7b' :: cs) value := by
  rintro ⟨value, before, text, after, hBefore, hAfter, hText, hDerives⟩
  obtain ⟨c, others, rfl, -⟩ := hDerives.exists_cons
  cases before with
  | cons blank blanks =>
      obtain ⟨rfl, -⟩ := List.cons.inj hText
      exact absurd (hBefore _ List.mem_cons_self) (by decide)
  | nil =>
      obtain rfl := (List.cons.inj hText).1
      obtain rfl : cs = others ++ after := (List.cons.inj hText).2
      have hRead : readValue? (('\x7b' :: (others ++ after) ++ more).length + 1)
          ('\x7b' :: (others ++ after) ++ more) = some (value, after ++ more) := by
        simp only [List.cons_append, List.append_assoc]
        exact readValue?_of_brace hDerives (by simp; omega) (after ++ more)
      have hWhole := read?_of_denotes h
      rw [read?, String.toList_ofList, hRead] at hWhole
      simp [skipSpace_append hAfter, hInk] at hWhole

end SyntaxSurvey.Json
