import SyntaxSurvey.Proofs.Document

/-! Files that are no text. They are told from the others by their bytes alone, wherever the first
defect is; reading such a file is a failure that nothing but its defect is known of. -/

namespace SyntaxSurvey

namespace Document

open Text

/-- The bytes without a byte order mark, if they start with a whole one. -/
def body (bytes : List UInt8) : List UInt8 :=
  if mark <+: bytes then bytes.drop mark.length else bytes

/-- The bytes are some text's. -/
def IsText (bytes : List UInt8) : Prop :=
  ∃ text, bytes = utf8 text

variable {bytes : List UInt8}

/-- Bytes are text exactly if some characters are encoded by them. -/
theorem isText_iff : IsText bytes ↔ ∃ cs, bytes = Utf8.encode cs := by
  constructor
  · rintro ⟨text, rfl⟩
    exact ⟨text.toList, (Utf8.encode_toList text).symm⟩
  · rintro ⟨cs, rfl⟩
    exact ⟨String.ofList cs, by rw [utf8, ← Utf8.encode_toList, String.toList_ofList]⟩

/-- What stands before the text in a file is a whole mark, or nothing, unless the file is a mark that
was begun and nothing else. -/
theorem withoutMark_eq_body (hOne : bytes ≠ [0xef]) (hTwo : bytes ≠ [0xef, 0xbb]) :
    withoutMark bytes = body bytes := by
  by_cases hMark : mark <+: bytes
  · obtain ⟨rest, rfl⟩ := hMark
    rw [body, if_pos (List.prefix_append _ _), List.drop_left]
    rfl
  · rw [body, if_neg hMark]
    exact withoutMark_of_ne (fun rest hBytes => hMark ⟨rest, hBytes.symm⟩) hOne hTwo

/-- A source can be read exactly if its bytes are text, its mark aside. -/
theorem exists_read_iff : (∃ text, read bytes = .ok text) ↔ IsText (withoutMark bytes) := by
  rw [isText_iff]
  constructor
  · rintro ⟨text, hRead⟩
    obtain ⟨cs, hBytes, -⟩ := exists_of_read hRead
    exact ⟨cs, hBytes⟩
  · rintro ⟨cs, hBytes⟩
    rw [read, hBytes, Utf8.decode_encode]
    exact ⟨_, rfl⟩

/-- A source has a defect exactly if its bytes are no text, its mark aside. -/
theorem exists_defect_iff : (∃ defect, read bytes = .error defect) ↔ ¬IsText (withoutMark bytes) := by
  rw [← exists_read_iff]
  cases read bytes with
  | error defect => simp
  | ok text => simp

theorem append_reason_ne (before : String) (reason : Utf8.Reason) :
    before ++ reason.text ≠ "" := by
  intro hEmpty
  have hReason := (String.append_eq_empty_iff.mp hEmpty).2
  cases reason <;> exact absurd hReason (by decide)

theorem message_ne_empty (defect : Utf8.Defect) : defect.message ≠ "" :=
  append_reason_ne _ _

theorem line_undecodable (defect : Utf8.Defect) :
    (Trouble.undecodable defect).line = "UnicodeDecodeError: " ++ defect.message :=
  if_neg (message_ne_empty defect)

/-- Which files are no text. A file cannot be read exactly if, without a byte order mark that stands
whole at its start, it is not the UTF-8 of any text, and it is not such a mark cut short either,
which counts as an empty file. Its reading is then a failure with the defect as its error, and it
has neither diagnostics nor a tree. -/
theorem undecodable_iff (t : Grammar.Table) (bytes : List UInt8) :
    ((∃ defect, read bytes = .error defect) ↔
      ¬IsText (body bytes) ∧ bytes ≠ [0xef] ∧ bytes ≠ [0xef, 0xbb]) ∧
    ∀ defect, read bytes = .error defect →
      ∀ (files : FileSystem) path took, files.read path = .ok bytes →
        let r := Reading.ofFile t files path took
        r.record.status = Record.failure ∧ r.record.diagnostics = [] ∧ r.tree = none
          ∧ r.record.error = some ("UnicodeDecodeError: " ++ defect.message) := by
  constructor
  · rw [exists_defect_iff]
    constructor
    · intro hNot
      have hEmpty : IsText [] := isText_iff.mpr ⟨[], rfl⟩
      have hOne : bytes ≠ [0xef] := fun hBytes => hNot (hBytes ▸ hEmpty)
      have hTwo : bytes ≠ [0xef, 0xbb] := fun hBytes => hNot (hBytes ▸ hEmpty)
      exact ⟨withoutMark_eq_body hOne hTwo ▸ hNot, hOne, hTwo⟩
    · rintro ⟨hNot, hOne, hTwo⟩
      rwa [withoutMark_eq_body hOne hTwo]
  · intro defect hDefect files path took hRead
    rw [Reading.ofFile, hRead]
    simp only [hDefect]
    exact ⟨rfl, rfl, rfl, congrArg some (line_undecodable defect)⟩

/-- A surrogate after a byte order mark. -/
theorem undecodable_iff_of_surrogate :
    let files : FileSystem := ⟨.directory [("a", .file [0xef, 0xbb, 0xbf, 0xed, 0xa0, 0x80])], []⟩
    ¬IsText [0xed, 0xa0, 0x80]
      ∧ (Reading.ofFile (Grammar.Python.table .file) files (.ofString "a") ⟨0⟩).record.error
        = some ("UnicodeDecodeError: 'utf-8' codec can't decode byte 0xed in position 0: "
          ++ "invalid continuation byte") := by
  intro files
  have hRead : read [0xef, 0xbb, 0xbf, 0xed, 0xa0, 0x80]
      = .error ⟨0, [0xed], .continuation⟩ := by decide +kernel
  obtain ⟨hIff, hError⟩ := undecodable_iff (Grammar.Python.table .file)
    [0xef, 0xbb, 0xbf, 0xed, 0xa0, 0x80]
  obtain ⟨-, -, -, hLine⟩ := hError _ hRead files (.ofString "a") ⟨0⟩ (by decide +kernel)
  exact ⟨(hIff.mp ⟨_, hRead⟩).1, hLine.trans (congrArg some (by decide +kernel))⟩

end Document

end SyntaxSurvey
