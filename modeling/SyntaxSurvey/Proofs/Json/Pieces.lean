import SyntaxSurvey.Json.Value
import SyntaxSurvey.Proofs.Text.Raw

/-! The pieces of a written form. They are handed to a file one by one, and where each of them can be
encoded, what the file is left with is the written form as a whole. -/

namespace SyntaxSurvey.Json

open Number (Quantity)
open Text (Raw)

section Written

variable (level : Nat)

@[simp]
theorem write_null : write level .null = "null".toList :=
  List.append_nil _

@[simp]
theorem write_bool (value : Bool) :
    write level (.bool value) = (if value then "true" else "false").toList :=
  List.append_nil _

@[simp]
theorem write_number (value : Quantity) : write level (.number value) = value.text.toList :=
  List.append_nil _

@[simp]
theorem write_string (value : String) : write level (.string value) = writeString value :=
  List.append_nil _

@[simp]
theorem write_noItems : write level (.array []) = "[]".toList :=
  List.append_nil _

@[simp]
theorem write_noFields : write level (.object []) = ['\x7b', '\x7d'] :=
  List.append_nil _

/-- Items stand between brackets, each on a line of its own. -/
@[simp]
theorem write_items (item : Json) (items : List Json) :
    write level (.array (item :: items)) =
      '[' :: newline (level + 1) ++ write (level + 1) item ++ writeItems (level + 1) items
        ++ newline level ++ [']'] := by
  simp [write, writeItems, pieces, Piece.chars]

/-- Fields stand between braces, each on a line of its own. -/
@[simp]
theorem write_fields (key : String) (value : Json) (fields : List (String × Json)) :
    write level (.object ((key, value) :: fields)) =
      '\x7b' :: newline (level + 1) ++ writeString key ++ ": ".toList ++ write (level + 1) value
        ++ writeFields (level + 1) fields ++ newline level ++ ['\x7d'] := by
  simp [write, writeFields, pieces, Piece.chars]

@[simp]
theorem writeItems_nil : writeItems level [] = [] :=
  rfl

/-- The first item is written on a line of its own, after a comma. -/
@[simp]
theorem writeItems_cons (item : Json) (items : List Json) :
    writeItems level (item :: items) =
      ',' :: newline level ++ write level item ++ writeItems level items := by
  simp [write, writeItems, piecesOfItems, Piece.chars]

@[simp]
theorem writeFields_nil : writeFields level [] = [] :=
  rfl

@[simp]
theorem writeFields_cons (key : String) (value : Json) (fields : List (String × Json)) :
    writeFields level ((key, value) :: fields) =
      ',' :: newline level ++ writeString key ++ ": ".toList ++ write level value
        ++ writeFields level fields := by
  simp [write, writeFields, piecesOfFields, Piece.chars]

end Written

variable {τ σ : Type}

mutual

/-- The value with other texts. The names of fields stay as they are. -/
def map (f : τ → σ) : Json τ → Json σ
  | .null => .null
  | .bool value => .bool value
  | .number value => .number value
  | .string value => .string (f value)
  | .array items => .array (mapItems f items)
  | .object fields => .object (mapFields f fields)

def mapItems (f : τ → σ) : List (Json τ) → List (Json σ)
  | [] => []
  | item :: items => map f item :: mapItems f items

def mapFields (f : τ → σ) : List (String × Json τ) → List (String × Json σ)
  | [] => []
  | (key, value) :: fields => (key, map f value) :: mapFields f fields

end

theorem mapItems_eq (f : τ → σ) (items : List (Json τ)) : mapItems f items = items.map (map f) := by
  induction items with
  | nil => rfl
  | cons item items ih => rw [mapItems, ih, List.map_cons]

def Piece.map (f : τ → σ) : Piece τ → Piece σ
  | .layout cs => .layout cs
  | .number value => .number value
  | .text value => .text (f value)

mutual

/-- Other texts stand in the same layout. -/
theorem pieces_map (f : τ → σ) (level : Nat) (value : Json τ) :
    pieces level (map f value) = (pieces level value).map (Piece.map f) := by
  match value with
  | .null => rfl
  | .bool _ => rfl
  | .number _ => rfl
  | .string _ => rfl
  | .array [] => rfl
  | .array (item :: items) =>
      simp [map, mapItems, pieces, Piece.map, pieces_map f (level + 1) item,
        piecesOfItems_map f (level + 1) items]
  | .object [] => rfl
  | .object ((key, value) :: fields) =>
      simp [map, mapFields, pieces, Piece.map, pieces_map f (level + 1) value,
        piecesOfFields_map f (level + 1) fields]

/-- Other texts in items are other texts in their pieces. -/
theorem piecesOfItems_map (f : τ → σ) (level : Nat) (items : List (Json τ)) :
    piecesOfItems level (mapItems f items) = (piecesOfItems level items).map (Piece.map f) := by
  match items with
  | [] => rfl
  | item :: items =>
      simp [mapItems, piecesOfItems, Piece.map, pieces_map f level item,
        piecesOfItems_map f level items]

theorem piecesOfFields_map (f : τ → σ) (level : Nat) (fields : List (String × Json τ)) :
    piecesOfFields level (mapFields f fields) = (piecesOfFields level fields).map (Piece.map f) := by
  match fields with
  | [] => rfl
  | (key, value) :: fields =>
      simp [mapFields, piecesOfFields, Piece.map, pieces_map f level value,
        piecesOfFields_map f level fields]

end

def Piece.text? : Piece τ → Option τ
  | .layout _ | .number _ => none
  | .text value => some value

def texts (value : Json τ) : List τ :=
  (pieces 0 value).filterMap Piece.text?

/-- Other texts in a value are its other texts. -/
theorem texts_map (f : τ → σ) (value : Json τ) : (map f value).texts = value.texts.map f := by
  have hText (piece : Piece τ) : (piece.map f).text? = piece.text?.map f := by
    cases piece <;> rfl
  rw [texts, pieces_map, texts, List.filterMap_map, List.map_filterMap]
  exact congrArg (List.filterMap · _) (funext hText)

mutual

def numbers : Json τ → List Quantity
  | .null => []
  | .bool _ => []
  | .number value => [value]
  | .string _ => []
  | .array items => numbersItems items
  | .object fields => numbersFields fields

def numbersItems : List (Json τ) → List Quantity
  | [] => []
  | item :: items => numbers item ++ numbersItems items

def numbersFields : List (String × Json τ) → List Quantity
  | [] => []
  | (_, value) :: fields => numbers value ++ numbersFields fields

end

def Piece.number? : Piece τ → Option Quantity
  | .layout _ | .text _ => none
  | .number value => some value

mutual

/-- The numbers of a value are written in their order, on whatever level it stands. -/
theorem filterMap_number? (level : Nat) (value : Json τ) :
    (pieces level value).filterMap Piece.number? = numbers value := by
  match value with
  | .null => rfl
  | .bool _ => rfl
  | .number _ => rfl
  | .string _ => rfl
  | .array [] => rfl
  | .array (item :: items) =>
      simp [pieces, numbers, numbersItems, Piece.number?, List.filterMap_cons,
        filterMap_number? (level + 1) item, filterMap_number?_items (level + 1) items]
  | .object [] => rfl
  | .object ((key, value) :: fields) =>
      simp [pieces, numbers, numbersFields, Piece.number?, List.filterMap_cons,
        filterMap_number? (level + 1) value, filterMap_number?_fields (level + 1) fields]

theorem filterMap_number?_items (level : Nat) (items : List (Json τ)) :
    (piecesOfItems level items).filterMap Piece.number? = numbersItems items := by
  match items with
  | [] => rfl
  | item :: items =>
      simp [piecesOfItems, numbersItems, Piece.number?, List.filterMap_cons,
        filterMap_number? level item, filterMap_number?_items level items]

theorem filterMap_number?_fields (level : Nat) (fields : List (String × Json τ)) :
    (piecesOfFields level fields).filterMap Piece.number? = numbersFields fields := by
  match fields with
  | [] => rfl
  | (key, value) :: fields =>
      simp [piecesOfFields, numbersFields, Piece.number?, List.filterMap_cons,
        filterMap_number? level value, filterMap_number?_fields level fields]

end

mutual

/-- A value is left as it is where each of its texts is. The level at which it is written has no
part in that. -/
theorem map_eq_self {f : τ → τ} (level : Nat) (value : Json τ)
    (h : ∀ text ∈ (pieces level value).filterMap Piece.text?, f text = text) :
    map f value = value := by
  match value with
  | .null => rfl
  | .bool _ => rfl
  | .number _ => rfl
  | .string value => rw [map, h value (List.mem_singleton_self value)]
  | .array [] => rfl
  | .array (item :: items) =>
      simp only [pieces, List.filterMap_append, List.filterMap_cons, Piece.text?,
        List.forall_mem_append, List.cons_append] at h
      rw [map, mapItems, map_eq_self (level + 1) item h.1.1,
        mapItems_eq_self (level + 1) items h.1.2]
  | .object [] => rfl
  | .object ((key, value) :: fields) =>
      simp only [pieces, List.filterMap_append, List.filterMap_cons, Piece.text?,
        List.forall_mem_append, List.cons_append] at h
      rw [map, mapFields, map_eq_self (level + 1) value h.1.1,
        mapFields_eq_self (level + 1) fields h.1.2]

/-- Items stay the same if all their texts do. -/
theorem mapItems_eq_self {f : τ → τ} (level : Nat) (items : List (Json τ))
    (h : ∀ text ∈ (piecesOfItems level items).filterMap Piece.text?, f text = text) :
    mapItems f items = items := by
  match items with
  | [] => rfl
  | item :: items =>
      simp only [piecesOfItems, List.filterMap_append, List.filterMap_cons, Piece.text?,
        List.forall_mem_append, List.cons_append] at h
      rw [mapItems, map_eq_self level item h.1, mapItems_eq_self level items h.2]

theorem mapFields_eq_self {f : τ → τ} (level : Nat) (fields : List (String × Json τ))
    (h : ∀ text ∈ (piecesOfFields level fields).filterMap Piece.text?, f text = text) :
    mapFields f fields = fields := by
  match fields with
  | [] => rfl
  | (key, value) :: fields =>
      simp only [piecesOfFields, List.filterMap_append, List.filterMap_cons, Piece.text?,
        List.forall_mem_append, List.cons_append] at h
      rw [mapFields, map_eq_self level value h.1, mapFields_eq_self level fields h.2]

end

section Encoding

variable {limit : Option Nat} {pieces : List (Piece Raw)} {s : Raw}

/-- A string as a raw text is written as before. -/
theorem writeRaw_ofString (s : String) : writeRaw (.ofString s) = Raw.ofChars (writeString s) := by
  have hPoints (cs : List Char) :
      (Raw.ofChars cs).flatMap escapePoint = Raw.ofChars (cs.flatMap escapeChar) := by
    rw [Raw.ofChars, List.flatMap_map, Raw.ofChars, List.map_flatMap]
    rfl
  rw [writeRaw, writeString, Raw.ofString, hPoints]
  simp [Raw.ofChars]

/-- Between quotes a half of a pair stands as it is. -/
theorem isText_of_writeRaw (h : (writeRaw s).IsText) : s.IsText := by
  intro point hMem
  cases point with
  | char c => rfl
  | half code =>
      refine h _ ?_
      rw [writeRaw, List.cons_append]
      exact List.mem_cons_of_mem _ (List.mem_append_left _
        (List.mem_flatMap.mpr ⟨.half code, hMem, List.mem_singleton_self _⟩))

/-- A piece that can be encoded: no half of a pair is in its text, and its number does not go beyond the
limit. -/
def Piece.IsWritable (limit : Option Nat) : Piece Raw → Prop
  | .layout _ => True
  | .number value => value.exceeded? limit = none
  | .text value => value.IsText

/-- A piece that can be encoded is encoded as what is shown of it. -/
theorem Piece.encode_of_isWritable {piece : Piece Raw} (h : piece.IsWritable limit) :
    piece.encode limit = .ok (Text.Utf8.encode (piece.map Raw.shown).chars) := by
  match piece with
  | .layout cs => rfl
  | .number value =>
      have hWithin : value.exceeded? limit = none := h
      rw [Piece.encode, hWithin]
      rfl
  | .text value =>
      have hText : value.IsText := h
      rw [Piece.encode, ← hText.ofString_shown, writeRaw_ofString, Raw.encode_ofChars, Piece.map,
        Raw.shown_ofString]
      rfl

/-- Any other piece has an obstacle in it. -/
theorem Piece.encode_of_not_isWritable {piece : Piece Raw} (h : ¬piece.IsWritable limit) :
    ∃ obstacle, piece.encode limit = .error obstacle := by
  match piece with
  | .layout cs => exact absurd trivial h
  | .number value =>
      obtain ⟨most, hMost⟩ := Option.ne_none_iff_exists'.mp h
      exact ⟨.digits most, by rw [Piece.encode, hMost]⟩
  | .text value =>
      obtain ⟨obstacle, hObstacle⟩ :=
        Raw.encode_eq_error_of_not_isText fun hText => h (isText_of_writeRaw hText)
      exact ⟨.half obstacle, by rw [Piece.encode, hObstacle]; rfl⟩

/-- Pieces that can be encoded are encoded to the bytes of all that is written. -/
theorem encodePieces_of_isWritable (h : ∀ piece ∈ pieces, piece.IsWritable limit) :
    encodePieces limit pieces =
      (Text.Utf8.encode ((pieces.map (Piece.map Raw.shown)).flatMap Piece.chars), none) := by
  induction pieces with
  | nil => rfl
  | cons piece pieces ih =>
      obtain ⟨hFirst, hOthers⟩ := List.forall_mem_cons.mp h
      simp only [encodePieces, Piece.encode_of_isWritable hFirst, ih hOthers, List.map_cons,
        List.flatMap_cons, Text.Utf8.encode, List.flatMap_append]

/-- Otherwise what is encoded ends before the first piece that cannot be, and it is the beginning of
what would be written if halves were replaced and any number of digits were allowed. -/
theorem encodePieces_of_not_isWritable (h : ¬∀ piece ∈ pieces, piece.IsWritable limit) :
    ∃ before piece after obstacle, pieces = before ++ piece :: after ∧ ¬piece.IsWritable limit
      ∧ encodePieces limit pieces =
        (Text.Utf8.encode ((before.map (Piece.map Raw.shown)).flatMap Piece.chars),
          some obstacle) := by
  induction pieces with
  | nil => exact absurd nofun h
  | cons first pieces ih =>
      by_cases hFirst : first.IsWritable limit
      · have hOthers : ¬∀ other ∈ pieces, other.IsWritable limit :=
          fun hAll => h (List.forall_mem_cons.mpr ⟨hFirst, hAll⟩)
        obtain ⟨before, piece, after, obstacle, rfl, hNot, hEncoded⟩ := ih hOthers
        refine ⟨first :: before, piece, after, obstacle, rfl, hNot, ?_⟩
        simp only [encodePieces, Piece.encode_of_isWritable hFirst, hEncoded, List.map_cons,
          List.flatMap_cons, Text.Utf8.encode, List.flatMap_append]
      · obtain ⟨obstacle, hObstacle⟩ := Piece.encode_of_not_isWritable hFirst
        refine ⟨[], first, pieces, obstacle, rfl, hFirst, ?_⟩
        rw [encodePieces, hObstacle]
        rfl

/-- All pieces of a value can be encoded exactly if its texts have no halves and no number in it goes
beyond the limit. -/
theorem forall_isWritable_iff {value : Json Raw} :
    (∀ piece ∈ Json.pieces 0 value, piece.IsWritable limit)
      ↔ (∀ s ∈ value.texts, s.IsText) ∧ ∀ q ∈ value.numbers, q.exceeded? limit = none := by
  constructor
  · intro h
    constructor
    · intro s hMem
      obtain ⟨piece, hPiece, hSome⟩ := List.mem_filterMap.mp hMem
      cases piece with
      | layout cs => cases hSome
      | number q => cases hSome
      | text t => exact Option.some.inj hSome ▸ h _ hPiece
    · intro q hMem
      rw [← filterMap_number? 0 value] at hMem
      obtain ⟨piece, hPiece, hSome⟩ := List.mem_filterMap.mp hMem
      cases piece with
      | layout cs => cases hSome
      | number r => exact Option.some.inj hSome ▸ h _ hPiece
      | text t => cases hSome
  · rintro ⟨hTexts, hNumbers⟩ piece hMem
    cases piece with
    | layout cs => trivial
    | number q =>
        refine hNumbers q ?_
        rw [← filterMap_number? 0 value]
        exact List.mem_filterMap.mpr ⟨_, hMem, rfl⟩
    | text s => exact hTexts s (List.mem_filterMap.mpr ⟨_, hMem, rfl⟩)

end Encoding

end SyntaxSurvey.Json
