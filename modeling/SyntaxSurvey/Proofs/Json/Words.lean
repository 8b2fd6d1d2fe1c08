import SyntaxSurvey.Proofs.Json.Writer

/-! Where the grammar and the extended one part. In a text of the grammar no word of the extended one
stands outside of quotes, and the texts of numbers without digits are such words. So what is written
belongs to the grammar exactly if all its numbers have digits. -/

namespace SyntaxSurvey.Json

open Number (Quantity Binary64)

inductive Standing where
  | outside
  | within
  | escaped

def bare : Standing → List Char → List Char
  | _, [] => []
  | .outside, c :: rest => if c = '"' then bare .within rest else c :: bare .outside rest
  | .within, c :: rest =>
    if c = '"' then bare .outside rest
    else if c = '\\' then bare .escaped rest
    else bare .within rest
  | .escaped, _ :: rest => bare .within rest

/-- All quotes that a text opens are closed in it. -/
def Closed (text : List Char) : Prop :=
  ∀ rest, bare .outside (text ++ rest) = bare .outside text ++ bare .outside rest

/-- A character of the words of the extended grammar that is in no text of the other one. -/
def IsCapital (c : Char) : Bool :=
  c == 'I' || c == 'N'

/-- A word stands outside of quotes. -/
def HasWord (text : List Char) : Prop :=
  ∃ c ∈ bare .outside text, IsCapital c

section Parts

variable {left right text cs : List Char}

/-- Texts whose quotes are closed can be put in a row. -/
theorem Closed.append (hLeft : Closed left) (hRight : Closed right) : Closed (left ++ right) := by
  intro rest
  rw [List.append_assoc, hLeft, hRight, hLeft, List.append_assoc]

/-- A word for a number stands in one of two texts in a row whose first has its quotes closed. -/
theorem Closed.hasWord_append (hLeft : Closed left) :
    HasWord (left ++ right) ↔ HasWord left ∨ HasWord right := by
  simp only [HasWord, hLeft right, List.mem_append, or_and_right, exists_or]

/-- A text without quotes is bare as a whole. -/
theorem bare_outside_of_unquoted (h : '"' ∉ text) (rest : List Char) :
    bare .outside (text ++ rest) = text ++ bare .outside rest := by
  induction text with
  | nil => rfl
  | cons c text ih =>
      have hFirst : c ≠ '"' := fun hEq => h (by simp [hEq])
      have hOthers : '"' ∉ text := fun hMem => h (List.mem_cons_of_mem c hMem)
      rw [List.cons_append, bare, if_neg hFirst, ih hOthers, List.cons_append]

theorem bare_eq_of_unquoted (h : '"' ∉ text) : bare .outside text = text := by
  have := bare_outside_of_unquoted h []
  rwa [List.append_nil, bare, List.append_nil] at this

theorem closed_of_unquoted (h : '"' ∉ text) : Closed text := by
  intro rest
  rw [bare_outside_of_unquoted h, bare_eq_of_unquoted h]

theorem bare_within_hex {c : Char} {n : Nat} (h : hexValue? c = some n) (rest : List Char) :
    bare .within (c :: rest) = bare .within rest := by
  have hQuote : c ≠ '"' := by
    rintro rfl
    simp [hexValue?] at h
  have hBackslash : c ≠ '\\' := by
    rintro rfl
    simp [hexValue?] at h
  rw [bare, if_neg hQuote, if_neg hBackslash]

/-- Nothing of an escape with digits is bare. -/
theorem bare_within_unit {a b c d : Char} {n : Nat} (h : hexUnit? a b c d = some n)
    (rest : List Char) :
    bare .within ('\\' :: 'u' :: a :: b :: c :: d :: rest) = bare .within rest := by
  simp only [hexUnit?, Option.bind_eq_bind, Option.bind_eq_some_iff] at h
  obtain ⟨first, hFirst, second, hSecond, third, hThird, fourth, hFourth, -⟩ := h
  show bare .within (a :: b :: c :: d :: rest) = _
  rw [bare_within_hex hFirst, bare_within_hex hSecond, bare_within_hex hThird,
    bare_within_hex hFourth]

/-- Nothing of a quoted text is bare. -/
theorem bare_within_quoted (h : Quoted text cs) (rest : List Char) :
    bare .within (text ++ '"' :: rest) = bare .outside rest := by
  induction h with
  | nil => rfl
  | plain control quote backslash _ ih =>
      rw [List.cons_append, bare, if_neg quote, if_neg backslash, ih]
  | short escape _ ih => exact ih
  | unit digits whole _ ih =>
      simp only [List.cons_append]
      rw [bare_within_unit digits, ih]
  | pair first highBound second lowBound _ ih =>
      simp only [List.cons_append]
      rw [bare_within_unit first, bare_within_unit second, ih]

theorem bare_quoted (h : Quoted text cs) : bare .outside ('"' :: text ++ ['"']) = [] :=
  bare_within_quoted h []

theorem closed_quoted (h : Quoted text cs) : Closed ('"' :: text ++ ['"']) := by
  intro rest
  rw [bare_quoted h, List.append_assoc, List.nil_append]
  exact bare_within_quoted h rest

end Parts

/-- A text whose quotes are closed, and that has no word of the extended grammar unless that is the
grammar. -/
structure Plain (extended : Bool) (text : List Char) : Prop where
  closed : Closed text
  wordless : extended = false → ¬HasWord text

section Plain

variable {extended : Bool} {left right text cs : List Char}

theorem Plain.append (hLeft : Plain extended left) (hRight : Plain extended right) :
    Plain extended (left ++ right) where
  closed := hLeft.closed.append hRight.closed
  wordless hStrict h := (hLeft.closed.hasWord_append.mp h).elim (hLeft.wordless hStrict)
    (hRight.wordless hStrict)

/-- A text without quotes and capitals has no word in it. -/
theorem plain_of_unquoted (hQuote : '"' ∉ text) (hWord : ∀ c ∈ text, ¬IsCapital c) :
    Plain extended text where
  closed := closed_of_unquoted hQuote
  wordless := by
    rintro - ⟨c, hMem, hCapital⟩
    rw [bare_eq_of_unquoted hQuote] at hMem
    exact hWord c hMem hCapital

/-- A text of characters that neither open quotes nor begin words of the extended grammar. -/
theorem plain_of_all (h : text.all fun c => c != '"' && !IsCapital c) : Plain extended text := by
  simp only [List.all_eq_true, Bool.and_eq_true, bne_iff_ne, Bool.not_eq_true'] at h
  refine plain_of_unquoted (fun hQuote => (h _ hQuote).1 rfl) fun c hMem => ?_
  simp [(h c hMem).2]

/-- What stands between quotes is no word. -/
theorem plain_quoted (h : Quoted text cs) : Plain extended ('"' :: text ++ ['"']) where
  closed := closed_quoted h
  wordless := by
    rintro - ⟨c, hMem, -⟩
    rw [bare_quoted h] at hMem
    cases hMem

theorem plain_blank (h : IsBlank text) : Plain extended text := by
  have hSpace (c : Char) (hMem : c ∈ text) : c = ' ' ∨ c = '\n' ∨ c = '\r' ∨ c = '\t' := by
    simpa [isSpace, or_assoc] using h c hMem
  refine plain_of_unquoted (fun hQuote => ?_) fun c hMem hCapital => ?_
  · rcases hSpace _ hQuote with hEq | hEq | hEq | hEq <;> cases hEq
  · rcases hSpace c hMem with rfl | rfl | rfl | rfl <;> simp [IsCapital] at hCapital

theorem plain_numeral {numeral : Numeral} (h : numeral.WellFormed) :
    Plain extended numeral.text := by
  refine plain_of_unquoted (fun hQuote => ?_) fun c hMem hCapital => ?_
  · exact absurd (numeral.isNumberChar_text h _ hQuote) (by decide)
  · have hChar := numeral.isNumberChar_text h c hMem
    simp only [IsCapital, Bool.or_eq_true, beq_iff_eq] at hCapital
    rcases hCapital with rfl | rfl
    · exact absurd hChar (by decide)
    · exact absurd hChar (by decide)

/-- In the extended grammar words are allowed. -/
theorem plain_word {x : Binary64} (h : Word text x) : Plain true text where
  closed := by cases h <;> exact closed_of_unquoted (by decide)
  wordless h := by cases h

/-- What stands between brackets. -/
theorem Plain.enclosed {first last : Char} (hFirst : Plain extended [first])
    (h : Plain extended text) (hLast : Plain extended [last]) :
    Plain extended (first :: text ++ [last]) :=
  (hFirst.append h).append hLast

end Plain

section Derived

variable {extended : Bool}

theorem plain_comma : Plain extended [','] :=
  plain_of_all (by decide)

theorem Plain.brackets {text : List Char} (h : Plain extended text) :
    Plain extended ('[' :: text ++ [']']) :=
  .enclosed (plain_of_all (by decide)) h (plain_of_all (by decide))

theorem Plain.braces {text : List Char} (h : Plain extended text) :
    Plain extended ('\x7b' :: text ++ ['\x7d']) :=
  .enclosed (plain_of_all (by decide)) h (plain_of_all (by decide))

/-- A key with its colon and a value. -/
theorem plain_field {before quoted key middle inner text after : List Char} (left : IsBlank before)
    (name : Quoted quoted key) (beforeColon : IsBlank middle) (afterColon : IsBlank inner)
    (h : Plain extended text) (right : IsBlank after) :
    Plain extended
      (before ++ '"' :: quoted ++ '"' :: middle ++ ':' :: inner ++ text ++ after) := by
  have hColon : Plain extended [':'] := plain_of_all (by decide)
  have hField := (plain_blank left).append ((plain_quoted name).append
    ((plain_blank beforeColon).append (hColon.append ((plain_blank afterColon).append
      (h.append (plain_blank right))))))
  simpa using hField

mutual

/-- A value that belongs to the grammar without words has none in its text. -/
theorem plain_of_derives {text : List Char} {value : Json} (h : Derives extended text value) :
    Plain extended text := by
  match h with
  | .null => exact plain_of_all (by decide)
  | .bool true => exact plain_of_all (by decide)
  | .bool false => exact plain_of_all (by decide)
  | .number hWell => exact plain_numeral hWell
  | .word hAllowed hWord =>
      subst hAllowed
      exact plain_word hWord
  | .string hQuoted => exact plain_quoted hQuoted
  | .noItems hBlank => exact (plain_blank hBlank).brackets
  | .items hItems => exact (plain_of_derivesItems hItems).brackets
  | .noFields hBlank => exact (plain_blank hBlank).braces
  | .fields hFields => exact (plain_of_derivesFields hFields).braces

theorem plain_of_derivesItems {text : List Char} {items : List Json}
    (h : DerivesItems extended text items) : Plain extended text := by
  match h with
  | .last left hItem right =>
      exact ((plain_blank left).append (plain_of_derives hItem)).append (plain_blank right)
  | .more left hItem right hOthers =>
      exact (((plain_blank left).append (plain_of_derives hItem)).append (plain_blank right)).append
        (plain_comma.append (plain_of_derivesItems hOthers))

theorem plain_of_derivesFields {text : List Char} {fields : List (String × Json)}
    (h : DerivesFields extended text fields) : Plain extended text := by
  match h with
  | .last left name beforeColon afterColon hValue right =>
      exact plain_field left name beforeColon afterColon (plain_of_derives hValue) right
  | .more left name beforeColon afterColon hValue right hOthers =>
      exact (plain_field left name beforeColon afterColon (plain_of_derives hValue) right).append
        (plain_comma.append (plain_of_derivesFields hOthers))

end

/-- No word stands outside of quotes in a text of the grammar. -/
theorem Denotes.wordless {text : List Char} {value : Json} (h : Denotes false text value) :
    ¬HasWord text := by
  obtain ⟨before, inner, after, hBefore, hAfter, rfl, hInner⟩ := h
  exact (((plain_blank hBefore).append (plain_of_derives hInner)).append
    (plain_blank hAfter)).wordless rfl

end Derived

/-- A number without digits is written as a word. -/
theorem hasWord_quantity {q : Quantity} (h : ¬q.HasDigits) : HasWord q.text.toList := by
  match q with
  | .integer _ => exact absurd trivial h
  | .real (.finite _ _ _) => exact absurd trivial h
  | .real (.infinite true) => exact ⟨'I', by decide, rfl⟩
  | .real (.infinite false) => exact ⟨'I', by decide, rfl⟩
  | .real (.notANumber _) =>
      have hWord : HasWord "NaN".toList := ⟨'N', by decide, rfl⟩
      exact hWord

/-- The text of a value has its quotes closed. -/
theorem closed_write (level : Nat) (value : Json) : Closed (write level value) :=
  (plain_of_derives (derives_write level value fun _ _ => Or.inl rfl)).closed

/-- A word is seen behind a text whose quotes are closed. -/
theorem HasWord.after {left right : List Char} (h : HasWord right) (hLeft : Closed left) :
    HasWord (left ++ right) :=
  hLeft.hasWord_append.mpr (Or.inr h)

/-- A word stays one with something behind it, if the quotes before are closed. -/
theorem HasWord.before {left : List Char} (h : HasWord left) (hLeft : Closed left)
    (right : List Char) : HasWord (left ++ right) :=
  hLeft.hasWord_append.mpr (Or.inl h)

/-- What stands before an item. -/
theorem closed_mark {mark : Char} (h : mark ≠ '"') (level : Nat) :
    Closed (mark :: newline level) := by
  have hMark : Closed [mark] := closed_of_unquoted (by simpa using h.symm)
  have hBlank : Plain true (newline level) := plain_blank (isBlank_newline level)
  exact hMark.append hBlank.closed

/-- What stands before the value of a field. -/
theorem closed_key {mark : Char} (h : mark ≠ '"') (level : Nat) (key : String) :
    Closed (mark :: newline level ++ writeString key ++ ": ".toList) :=
  ((closed_mark h level).append (closed_quoted (quoted_flatMap key.toList))).append
    (closed_of_unquoted (by decide))

mutual

/-- A number without digits is seen in what is written. -/
theorem hasWord_write (level : Nat) (value : Json) {q : Quantity} (hMem : q ∈ numbers value)
    (h : ¬q.HasDigits) : HasWord (write level value) := by
  match value with
  | .null => cases hMem
  | .bool _ => cases hMem
  | .number value =>
      rw [List.mem_singleton.mp hMem] at h
      rw [write_number]
      exact hasWord_quantity h
  | .string _ => cases hMem
  | .array [] => cases hMem
  | .array (item :: items) =>
      have hItems : HasWord (write (level + 1) item
          ++ (writeItems (level + 1) items ++ (newline level ++ [']']))) := by
        rcases List.mem_append.mp hMem with hFirst | hOther
        · exact (hasWord_write (level + 1) item hFirst h).before (closed_write _ _) _
        · exact (hasWord_writeItems (level + 1) items hOther h _).after (closed_write _ _)
      simpa using hItems.after (@closed_mark '[' (by decide) (level + 1))
  | .object [] => cases hMem
  | .object ((key, value) :: fields) =>
      have hFields : HasWord (write (level + 1) value
          ++ (writeFields (level + 1) fields ++ (newline level ++ ['\x7d']))) := by
        rcases List.mem_append.mp hMem with hFirst | hOther
        · exact (hasWord_write (level + 1) value hFirst h).before (closed_write _ _) _
        · exact (hasWord_writeFields (level + 1) fields hOther h _).after (closed_write _ _)
      simpa using hFields.after (@closed_key '\x7b' (by decide) (level + 1) key)

/-- If some number in items has no digits, there is a word in their text. -/
theorem hasWord_writeItems (level : Nat) (items : List Json) {q : Quantity}
    (hMem : q ∈ numbersItems items) (h : ¬q.HasDigits) (tail : List Char) :
    HasWord (writeItems level items ++ tail) := by
  match items with
  | [] => cases hMem
  | item :: items =>
      have hItems : HasWord (write level item ++ (writeItems level items ++ tail)) := by
        rcases List.mem_append.mp hMem with hFirst | hOther
        · exact (hasWord_write level item hFirst h).before (closed_write _ _) _
        · exact (hasWord_writeItems level items hOther h _).after (closed_write _ _)
      simpa using hItems.after (@closed_mark ',' (by decide) level)

theorem hasWord_writeFields (level : Nat) (fields : List (String × Json)) {q : Quantity}
    (hMem : q ∈ numbersFields fields) (h : ¬q.HasDigits) (tail : List Char) :
    HasWord (writeFields level fields ++ tail) := by
  match fields with
  | [] => cases hMem
  | (key, value) :: fields =>
      have hFields : HasWord (write level value ++ (writeFields level fields ++ tail)) := by
        rcases List.mem_append.mp hMem with hFirst | hOther
        · exact (hasWord_write level value hFirst h).before (closed_write _ _) _
        · exact (hasWord_writeFields level fields hOther h _).after (closed_write _ _)
      simpa using hFields.after (@closed_key ',' (by decide) level key)

end

/-- What is written belongs to the grammar exactly if all numbers in it have digits. -/
theorem exists_denotes_text_iff {value : Json} :
    (∃ other, Denotes false value.text.toList other) ↔ ∀ q ∈ numbers value, q.HasDigits := by
  constructor
  · rintro ⟨other, hOther⟩ q hMem
    by_contra hWord
    have hText : value.text.toList = write 0 value := by rw [text, String.toList_ofList]
    exact (hText ▸ hOther.wordless) (hasWord_write 0 value hMem hWord)
  · intro h
    exact ⟨_, denotes_text fun q hMem => Or.inr (h q hMem)⟩

end SyntaxSurvey.Json
