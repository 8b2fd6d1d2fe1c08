import SyntaxSurvey.Proofs.Json.Pieces
import SyntaxSurvey.Proofs.Json.Reader
import SyntaxSurvey.Proofs.Number.Text

/-! The written form of a value is a text of the grammar, and it denotes the value. Numbers that are
not finite are written as words, which only the extended grammar has. -/

namespace SyntaxSurvey.Json

open Number (Quantity Binary64)

variable {extended : Bool}

/-- A number with digits is written as a numeral, and another one as a word. -/
theorem derives_quantity {q : Quantity} (h : extended = true ∨ q.HasDigits) :
    Derives extended q.text.toList (.number q.reread) := by
  match q with
  | .integer n =>
      rw [Quantity.text, ← text_integerNumeral, Quantity.reread, ← value_integerNumeral]
      exact .number (wellFormed_integerNumeral n)
  | .real (.finite negative mantissa exponent) =>
      rw [Quantity.text, ← Binary64.text_textNumeral, Quantity.reread,
        ← Binary64.value_textNumeral]
      exact .number (Binary64.wellFormed_textNumeral negative mantissa exponent)
  | .real (.infinite true) =>
      exact .word (h.resolve_right id) .negativeInfinite
  | .real (.infinite false) =>
      exact .word (h.resolve_right id) .infinite
  | .real (.notANumber _) =>
      exact .word (h.resolve_right id) .notANumber

/-- What cannot be encoded, a text or an integer, does not begin with white space. -/
theorem Piece.skipSpace_ne_nil {limit : Option Nat} {piece : Piece Text.Raw}
    (h : ¬piece.IsWritable limit) (rest : List Char) :
    skipSpace ((piece.map Text.Raw.shown).chars ++ rest) ≠ [] := by
  match piece with
  | .layout cs => exact absurd trivial h
  | .number (.real x) => exact absurd rfl h
  | .number (.integer n) =>
      obtain ⟨c, others, hText, hBare⟩ := Numeral.isBare_text (wellFormed_integerNumeral n)
      rw [text_integerNumeral] at hText
      rw [Piece.map, Piece.chars, Quantity.text, hText, List.cons_append,
        skipSpace_cons (isBare_iff.mp hBare).1]
      exact List.cons_ne_nil _ _
  | .text s =>
      rw [Piece.map, Piece.chars, writeString, List.cons_append, List.cons_append,
        skipSpace_cons (by decide)]
      exact List.cons_ne_nil _ _

theorem hexValue?_digitChar : ∀ d < 16, hexValue? (Nat.digitChar d) = some d := by
  decide

/-- Four digits for a code are read as that code. -/
theorem hexUnit?_hexDigits {n : Nat} (h : n < 0x10000) :
    ∃ a b c d, Text.hexDigits 4 n = [a, b, c, d] ∧ hexUnit? a b c d = some n := by
  refine ⟨_, _, _, _, rfl, ?_⟩
  have hDigit (m : Nat) : hexValue? (Nat.digitChar (m % 16)) = some (m % 16) :=
    hexValue?_digitChar _ (Nat.mod_lt _ (by decide))
  simp only [hexUnit?, hDigit, Option.bind_eq_bind, Option.bind_some, Option.pure_def]
  congr 1
  omega

/-- A character is quoted as it is written. -/
theorem quoted_escapeChar (c : Char) {text cs : List Char} (h : Quoted text cs) :
    Quoted (escapeChar c ++ text) (c :: cs) := by
  rw [escapeChar]
  split
  next hSelf =>
    rcases Bool.or_eq_true _ _ ▸ hSelf with hQuote | hBackslash
    · rw [beq_iff_eq] at hQuote
      subst hQuote
      exact .short rfl h
    · rw [beq_iff_eq] at hBackslash
      subst hBackslash
      exact .short rfl h
  next hPlain =>
  split_ifs with hLine hReturn hTab hBack hFeed hControl
  · exact beq_iff_eq.mp hLine ▸ .short rfl h
  · exact beq_iff_eq.mp hReturn ▸ .short rfl h
  · exact beq_iff_eq.mp hTab ▸ .short rfl h
  · exact beq_iff_eq.mp hBack ▸ .short rfl h
  · exact beq_iff_eq.mp hFeed ▸ .short rfl h
  · obtain ⟨a, b, d, e, hDigits, hUnit⟩ := hexUnit?_hexDigits (n := c.toNat) (by omega)
    rw [hDigits]
    have hWhole : Quoted ('\\' :: 'u' :: a :: b :: d :: e :: text) (Char.ofNat c.toNat :: cs) :=
      .unit hUnit (by omega) h
    rwa [Char.ofNat_toNat] at hWhole
  · simp only [Bool.or_eq_true, beq_iff_eq, not_or] at hPlain
    exact .plain (not_lt.mp hControl) hPlain.1 hPlain.2 h

theorem quoted_flatMap (cs : List Char) : Quoted (cs.flatMap escapeChar) cs := by
  induction cs with
  | nil => exact .nil
  | cons c cs ih => exact quoted_escapeChar c ih

mutual

def mapNumbers (f : Quantity → Quantity) : Json → Json
  | .null => .null
  | .bool value => .bool value
  | .number value => .number (f value)
  | .string value => .string value
  | .array items => .array (mapNumbersItems f items)
  | .object fields => .object (mapNumbersFields f fields)

def mapNumbersItems (f : Quantity → Quantity) : List Json → List Json
  | [] => []
  | item :: items => mapNumbers f item :: mapNumbersItems f items

def mapNumbersFields (f : Quantity → Quantity) : List (String × Json) → List (String × Json)
  | [] => []
  | (key, value) :: fields => (key, mapNumbers f value) :: mapNumbersFields f fields

end

mutual

/-- A value stays the same if all its numbers do. -/
theorem mapNumbers_eq_self {f : Quantity → Quantity} (value : Json)
    (h : ∀ q ∈ numbers value, f q = q) : mapNumbers f value = value := by
  match value with
  | .null => rfl
  | .bool _ => rfl
  | .number value => rw [mapNumbers, h value (List.mem_singleton_self value)]
  | .string _ => rfl
  | .array items => rw [mapNumbers, mapNumbersItems_eq_self items h]
  | .object fields => rw [mapNumbers, mapNumbersFields_eq_self fields h]

theorem mapNumbersItems_eq_self {f : Quantity → Quantity} (items : List Json)
    (h : ∀ q ∈ numbersItems items, f q = q) : mapNumbersItems f items = items := by
  match items with
  | [] => rfl
  | item :: items =>
      obtain ⟨hFirst, hOthers⟩ := List.forall_mem_append.mp h
      rw [mapNumbersItems, mapNumbers_eq_self item hFirst, mapNumbersItems_eq_self items hOthers]

theorem mapNumbersFields_eq_self {f : Quantity → Quantity} (fields : List (String × Json))
    (h : ∀ q ∈ numbersFields fields, f q = q) : mapNumbersFields f fields = fields := by
  match fields with
  | [] => rfl
  | (key, value) :: fields =>
      obtain ⟨hFirst, hOthers⟩ := List.forall_mem_append.mp h
      rw [mapNumbersFields, mapNumbers_eq_self value hFirst,
        mapNumbersFields_eq_self fields hOthers]

end

theorem isBlank_newline (level : Nat) : IsBlank (newline level) := by
  intro c hMem
  rcases List.mem_cons.mp hMem with rfl | hSpace
  · rfl
  · rw [List.eq_of_mem_replicate hSpace]
    rfl

theorem isBlank_nil : IsBlank [] := by
  intro c hMem
  cases hMem

theorem isBlank_space : IsBlank [' '] := by
  intro c hMem
  rw [List.mem_singleton.mp hMem]
  rfl

/-- One field alone, as it is written. -/
theorem derivesFields_last (level : Nat) (key : String) {text tail : List Char} {value : Json}
    (h : Derives extended text value) (hTail : IsBlank tail) :
    DerivesFields extended (newline level ++ writeString key ++ ": ".toList ++ text ++ tail)
      [(key, value)] := by
  have hField := DerivesFields.last (isBlank_newline level) (quoted_flatMap key.toList) isBlank_nil
    isBlank_space h hTail
  simpa [writeString] using hField

/-- A field before others, as it is written. -/
theorem derivesFields_more (level : Nat) (key : String) {text others : List Char} {value : Json}
    {fields : List (String × Json)} (h : Derives extended text value)
    (hOthers : DerivesFields extended others fields) :
    DerivesFields extended
      (newline level ++ writeString key ++ ": ".toList ++ text ++ ',' :: others)
      ((key, value) :: fields) := by
  have hField := DerivesFields.more (isBlank_newline level) (quoted_flatMap key.toList) isBlank_nil
    isBlank_space h isBlank_nil hOthers
  simpa [writeString] using hField

mutual

/-- What is written denotes the value, with its numbers as they are read again. -/
theorem derives_write (level : Nat) (value : Json)
    (h : ∀ q ∈ numbers value, extended = true ∨ q.HasDigits) :
    Derives extended (write level value) (value.mapNumbers Quantity.reread) := by
  match value with
  | .null =>
      rw [write_null]
      exact .null
  | .bool value =>
      rw [write_bool]
      exact .bool value
  | .number value =>
      rw [write_number]
      exact derives_quantity (h value (List.mem_singleton_self value))
  | .string value =>
      rw [write_string]
      have hString : Derives extended (writeString value) (.string (String.ofList value.toList)) :=
        .string (quoted_flatMap value.toList)
      rwa [String.ofList_toList] at hString
  | .array [] =>
      exact .noItems isBlank_nil
  | .array (item :: items) =>
      obtain ⟨hFirst, hOthers⟩ := List.forall_mem_append.mp h
      have hItems := derives_writeItems (level + 1) items hOthers
        (derives_write (level + 1) item hFirst) (isBlank_newline level)
      simpa [mapNumbers, mapNumbersItems] using Derives.items hItems
  | .object [] =>
      exact .noFields isBlank_nil
  | .object ((key, value) :: fields) =>
      obtain ⟨hFirst, hOthers⟩ := List.forall_mem_append.mp h
      have hFields := derives_writeFields (level + 1) fields hOthers key
        (derives_write (level + 1) value hFirst) (isBlank_newline level)
      simpa [mapNumbers, mapNumbersFields] using Derives.fields hFields

/-- The items of a list belong to the grammar as they are written, after a first one that does. -/
theorem derives_writeItems (level : Nat) (items : List Json)
    (h : ∀ q ∈ numbersItems items, extended = true ∨ q.HasDigits) {text : List Char} {value : Json}
    (hText : Derives extended text value) {tail : List Char} (hTail : IsBlank tail) :
    DerivesItems extended (newline level ++ text ++ (writeItems level items ++ tail))
      (value :: mapNumbersItems Quantity.reread items) := by
  match items with
  | [] =>
      exact .last (isBlank_newline level) hText hTail
  | item :: items =>
      obtain ⟨hFirst, hOthers⟩ := List.forall_mem_append.mp h
      have hRest := derives_writeItems level items hOthers (derives_write level item hFirst) hTail
      have hMore := DerivesItems.more (isBlank_newline level) hText isBlank_nil hRest
      simpa [mapNumbersItems] using hMore

theorem derives_writeFields (level : Nat) (fields : List (String × Json))
    (h : ∀ q ∈ numbersFields fields, extended = true ∨ q.HasDigits) (key : String)
    {text : List Char} {value : Json} (hText : Derives extended text value) {tail : List Char}
    (hTail : IsBlank tail) :
    DerivesFields extended
      (newline level ++ writeString key ++ ": ".toList ++ text ++ (writeFields level fields ++ tail))
      ((key, value) :: mapNumbersFields Quantity.reread fields) := by
  match fields with
  | [] =>
      exact derivesFields_last level key hText hTail
  | (other, second) :: fields =>
      obtain ⟨hFirst, hOthers⟩ := List.forall_mem_append.mp h
      have hRest := derives_writeFields level fields hOthers other
        (derives_write level second hFirst) hTail
      have hMore := derivesFields_more level key hText hRest
      simpa [mapNumbersFields] using hMore

end

/-- The text of a value denotes it, its numbers read again. -/
theorem denotes_text {value : Json} (h : ∀ q ∈ numbers value, extended = true ∨ q.HasDigits) :
    Denotes extended value.text.toList (value.mapNumbers Quantity.reread) := by
  refine ⟨[], write 0 value, [], isBlank_nil, isBlank_nil, ?_, derives_write 0 value h⟩
  rw [text, String.toList_ofList, List.nil_append, List.append_nil]

/-- The text of a value denotes the value and no other one. -/
theorem denotes_text_iff {value other : Json} (h : ∀ q ∈ numbers value, q.InFormat) :
    Denotes true value.text.toList other ↔ other = value := by
  have hSame : value.mapNumbers Quantity.reread = value :=
    mapNumbers_eq_self value fun q hMem => Quantity.reread_eq (h q hMem)
  have hDenotes : Denotes true value.text.toList (value.mapNumbers Quantity.reread) :=
    denotes_text fun _ _ => Or.inl rfl
  rw [hSame] at hDenotes
  constructor
  · intro hOther
    exact hOther.unique hDenotes
  · rintro rfl
    exact hDenotes

end SyntaxSurvey.Json
