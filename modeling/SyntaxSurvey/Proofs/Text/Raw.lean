import Mathlib.Data.List.Basic
import SyntaxSurvey.Text.Raw

/-! Raw texts that are texts. Those without halves of pairs are strings, and they can be encoded.
The first half in a raw text keeps it from being encoded. -/

namespace SyntaxSurvey.Text.Raw

def IsText (s : Raw) : Prop :=
  ∀ point ∈ s, point.isHalf = false

instance (s : Raw) : Decidable s.IsText :=
  List.decidableBAll (fun point : Point => point.isHalf = false) s

/-- Characters are text. -/
theorem isText_ofChars (cs : List Char) : (ofChars cs).IsText := by
  intro point hMem
  obtain ⟨c, -, rfl⟩ := List.mem_map.mp hMem
  rfl

theorem shown_ofString (s : String) : (ofString s).shown = s := by
  have hSame : Point.shown ∘ Point.char = id := rfl
  rw [shown, ofString, ofChars, List.map_map, hSame, List.map_id, String.ofList_toList]

/-- A raw text without halves is the string that is shown for it. -/
theorem IsText.ofString_shown {s : Raw} (h : s.IsText) : ofString s.shown = s := by
  have hSame : ∀ point ∈ s, Point.char point.shown = point := by
    intro point hMem
    cases point with
    | char c => rfl
    | half code => cases h _ hMem
  rw [ofString, shown, String.toList_ofList, ofChars, List.map_map]
  exact (List.map_congr_left hSame).trans (List.map_id' s)

/-- A raw text that is no text has characters, and then its first half. -/
theorem exists_half {s : Raw} (h : ¬s.IsText) :
    ∃ cs code rest, s = ofChars cs ++ .half code :: rest := by
  induction s with
  | nil => exact absurd nofun h
  | cons point rest ih =>
      cases point with
      | half code => exact ⟨[], code, rest, rfl⟩
      | char c =>
          have hRest : ¬IsText rest := fun hText => h (List.forall_mem_cons.mpr ⟨rfl, hText⟩)
          obtain ⟨cs, code, others, rfl⟩ := ih hRest
          exact ⟨c :: cs, code, others, rfl⟩

/-- Characters have no obstacle among them. -/
theorem encodeFrom_ofChars (position : Nat) (cs : List Char) :
    encodeFrom position (ofChars cs) = .ok (Utf8.encode cs) := by
  induction cs generalizing position with
  | nil => rfl
  | cons c cs ih => rw [ofChars, List.map_cons, encodeFrom, ← ofChars, ih]; rfl

/-- Characters are encoded to the bytes that they have as a text. -/
theorem encode_ofChars (cs : List Char) : (ofChars cs).encode = .ok (Utf8.encode cs) :=
  encodeFrom_ofChars 0 cs

/-- The first half is an obstacle, which is told with its position and with how many halves follow
it. -/
theorem encodeFrom_half (position : Nat) (cs : List Char) (code : Fin 0x800) (rest : Raw) :
    encodeFrom position (ofChars cs ++ .half code :: rest)
      = .error ⟨code, position + cs.length, (rest.takeWhile Point.isHalf).length + 1⟩ := by
  induction cs generalizing position with
  | nil => rfl
  | cons c cs ih =>
      rw [ofChars, List.map_cons, List.cons_append, encodeFrom, ← ofChars, ih, List.length_cons,
        Nat.add_right_comm, Nat.add_assoc]
      rfl

/-- Nothing but a half keeps a raw text from being encoded. -/
theorem encode_eq_error_of_not_isText {s : Raw} (h : ¬s.IsText) :
    ∃ obstacle, s.encode = .error obstacle := by
  obtain ⟨cs, code, rest, rfl⟩ := exists_half h
  exact ⟨_, encodeFrom_half 0 cs code rest⟩

example : ¬IsText [.char 'c', .half 0x4e9] :=
  by decide

example : encode [.char 'c', .half 0x4e9] = .error ⟨0x4e9, 1, 1⟩ :=
  rfl

end SyntaxSurvey.Text.Raw
