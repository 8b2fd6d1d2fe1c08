import SyntaxSurvey.Proofs.Text.Utf8

/-! What is decoded was encoded: the bytes of a text that was read are those of its characters, each
in its one form. So bytes that no text has are not read. -/

namespace SyntaxSurvey.Text.Utf8

section Sequences

variable {bytes others : List UInt8} {bounds : List (UInt8 × UInt8)} {point whole : Nat}

/-- A byte that carries six bits of a code point was taken. -/
theorem exists_bits_of_takeTail {low high : UInt8} (hLow : 0x80 ≤ low.toNat)
    (hTail : takeTail ((low, high) :: bounds) point bytes = .ok (whole, others)) :
    ∃ bits rest, bytes = (0x80 + bits).toUInt8 :: rest ∧ low.toNat ≤ 0x80 + bits
      ∧ 0x80 + bits ≤ high.toNat ∧ takeTail bounds (point * 64 + bits) rest = .ok (whole, others) := by
  cases bytes with
  | nil => cases hTail
  | cons byte rest =>
      rw [takeTail] at hTail
      split at hTail
      next hFits =>
        rw [UInt8.le_iff_toNat_le, UInt8.le_iff_toNat_le] at hFits
        have hByte : 0x80 + (byte.toNat - 0x80) = byte.toNat := by omega
        refine ⟨byte.toNat - 0x80, rest, ?_, by omega, by omega, ?_⟩
        · rw [hByte]
          simp
        · split at hTail
          next hRest => rw [← hTail, hRest]
          next => cases hTail
      next => cases hTail

/-- The last byte of a sequence was taken. -/
theorem exists_last_of_takeTail
    (hTail : takeTail [(0x80, 0xbf)] point bytes = .ok (whole, others)) :
    ∃ bits < 64, bytes = (0x80 + bits).toUInt8 :: others ∧ whole = point * 64 + bits := by
  obtain ⟨bits, rest, rfl, -, hHigh, hNil⟩ := exists_bits_of_takeTail (by decide) hTail
  obtain ⟨rfl, rfl⟩ : point * 64 + bits = whole ∧ rest = others := by simpa [takeTail] using hNil
  have hBound : 0x80 + bits ≤ 0xbf := hHigh
  exact ⟨bits, by omega, rfl, rfl⟩

/-- The last two bytes of a sequence were taken. -/
theorem exists_two_of_takeTail
    (hTail : takeTail [(0x80, 0xbf), (0x80, 0xbf)] point bytes = .ok (whole, others)) :
    ∃ bits < 64, ∃ more < 64,
      bytes = (0x80 + bits).toUInt8 :: (0x80 + more).toUInt8 :: others
        ∧ whole = (point * 64 + bits) * 64 + more := by
  obtain ⟨bits, rest, rfl, -, hHigh, hLast⟩ := exists_bits_of_takeTail (by decide) hTail
  obtain ⟨more, hMore, rfl, rfl⟩ := exists_last_of_takeTail hLast
  have hBound : 0x80 + bits ≤ 0xbf := hHigh
  exact ⟨bits, by omega, more, hMore, rfl, rfl⟩

end Sequences

/-- Which bytes start a sequence of more than one. -/
theorem first_cases {first : UInt8} (hSome : tailBounds first ≠ []) :
    (∃ bits < 0x20, 2 ≤ bits ∧ first = (0xc0 + bits).toUInt8)
      ∨ (∃ bits < 0x10, first = (0xe0 + bits).toUInt8)
      ∨ ∃ bits < 5, first = (0xf0 + bits).toUInt8 := by
  have hRange : ∀ n < 0x100, tailBounds n.toUInt8 ≠ [] → 0xc2 ≤ n ∧ n < 0xf5 := by
    decide +kernel
  have hFirst : first = first.toNat.toUInt8 := by simp
  obtain ⟨hLeast, hMost⟩ := hRange first.toNat first.toNat_lt (hFirst ▸ hSome)
  by_cases hTwo : first.toNat < 0xe0
  · exact Or.inl ⟨first.toNat - 0xc0, by omega, by omega,
      by rwa [show 0xc0 + (first.toNat - 0xc0) = first.toNat by omega]⟩
  by_cases hThree : first.toNat < 0xf0
  · exact Or.inr (Or.inl ⟨first.toNat - 0xe0, by omega,
      by rwa [show 0xe0 + (first.toNat - 0xe0) = first.toNat by omega]⟩)
  · exact Or.inr (Or.inr ⟨first.toNat - 0xf0, by omega,
      by rwa [show 0xf0 + (first.toNat - 0xf0) = first.toNat by omega]⟩)

section Characters

variable {a b c d : Nat}

/-- A code that is no half of a pair is that of its character. -/
theorem toNat_ofNat {n : Nat} (hValid : n < 0xd800 ∨ 0xdfff < n ∧ n < 0x110000) :
    (Char.ofNat n).toNat = n := by
  rw [Char.ofNat, dif_pos hValid]
  rfl

theorem encodeChar_one (ha : a < 0x80) : encodeChar (Char.ofNat a) = [a.toUInt8] := by
  have hValid : a < 0xd800 ∨ 0xdfff < a ∧ a < 0x110000 := by omega
  simp only [encodeChar, toNat_ofNat hValid]
  rw [if_pos ha]

theorem encodeChar_two (hLeast : 2 ≤ a) (ha : a < 0x20) (hb : b < 64) :
    encodeChar (Char.ofNat (a * 64 + b)) = [(0xc0 + a).toUInt8, (0x80 + b).toUInt8] := by
  have hValid : a * 64 + b < 0xd800 ∨ 0xdfff < a * 64 + b ∧ a * 64 + b < 0x110000 := by omega
  have hHigh : (a * 64 + b) / 64 = a := by omega
  have hLow : (a * 64 + b) % 64 = b := by omega
  simp only [encodeChar, toNat_ofNat hValid, hHigh, hLow]
  rw [if_neg (by omega), if_pos (by omega)]

/-- Three bytes are the encoding of the character whose code they hold, if it is neither overlong
nor half of a pair. -/
theorem encodeChar_three (ha : a < 0x10) (hb : b < 64) (hc : c < 64) (hLong : a = 0 → 0x20 ≤ b)
    (hWhole : a = 0xd → b < 0x20) :
    encodeChar (Char.ofNat ((a * 64 + b) * 64 + c))
      = [(0xe0 + a).toUInt8, (0x80 + b).toUInt8, (0x80 + c).toUInt8] := by
  generalize hn : (a * 64 + b) * 64 + c = n
  have hValid : n < 0xd800 ∨ 0xdfff < n ∧ n < 0x110000 := by omega
  have hHigh : n / 4096 = a := by omega
  have hMiddle : n / 64 % 64 = b := by omega
  have hLow : n % 64 = c := by omega
  simp only [encodeChar, toNat_ofNat hValid, hHigh, hMiddle, hLow]
  rw [if_neg (by omega), if_neg (by omega), if_pos (by omega)]

/-- Four bytes are the encoding of the character whose code they hold, if it is neither overlong nor
too large. -/
theorem encodeChar_four (ha : a < 5) (hb : b < 64) (hc : c < 64) (hd : d < 64)
    (hLong : a = 0 → 0x10 ≤ b) (hMost : a = 4 → b < 0x10) :
    encodeChar (Char.ofNat (((a * 64 + b) * 64 + c) * 64 + d))
      = [(0xf0 + a).toUInt8, (0x80 + b).toUInt8, (0x80 + c).toUInt8, (0x80 + d).toUInt8] := by
  generalize hn : ((a * 64 + b) * 64 + c) * 64 + d = n
  have hValid : n < 0xd800 ∨ 0xdfff < n ∧ n < 0x110000 := by omega
  have hHigh : n / 262144 = a := by omega
  have hUpper : n / 4096 % 64 = b := by omega
  have hMiddle : n / 64 % 64 = c := by omega
  have hLow : n % 64 = d := by omega
  simp only [encodeChar, toNat_ofNat hValid, hHigh, hUpper, hMiddle, hLow]
  rw [if_neg (by omega), if_neg (by omega), if_neg (by omega)]

/-- A sequence that was taken is that of a character. -/
theorem eq_encodeChar_of_takeTail {first : UInt8} {bound : UInt8 × UInt8}
    {bounds : List (UInt8 × UInt8)} {rest others : List UInt8} {point : Nat}
    (hBounds : tailBounds first = bound :: bounds)
    (hTail : takeTail (bound :: bounds) (leadBits first) rest = .ok (point, others)) :
    first :: rest = encodeChar (Char.ofNat point) ++ others := by
  have hSome : tailBounds first ≠ [] := by simp [hBounds]
  rw [← hBounds] at hTail
  rcases first_cases hSome with ⟨a, ha, hLeast, rfl⟩ | ⟨a, ha, rfl⟩ | ⟨a, ha, rfl⟩
  · obtain ⟨-, hTwo, hBits⟩ := first_of_two a ha hLeast
    rw [hTwo, hBits] at hTail
    obtain ⟨b, hb, rfl, rfl⟩ := exists_last_of_takeTail hTail
    rw [encodeChar_two hLeast ha hb]
    rfl
  · obtain ⟨-, hThree, hBits⟩ := first_of_three a ha
    rw [hThree, hBits] at hTail
    obtain ⟨b, rest, rfl, hLow, hHigh, hLast⟩ :=
      exists_bits_of_takeTail (by split <;> decide) hTail
    obtain ⟨c, hc, rfl, rfl⟩ := exists_last_of_takeTail hLast
    have hLong : a = 0 → 0xa0 ≤ 0x80 + b := fun hZero => by simpa [hZero] using hLow
    have hWhole : a = 0xd → 0x80 + b ≤ 0x9f := fun hSurrogate => by simpa [hSurrogate] using hHigh
    have hMost : 0x80 + b ≤ 0xbf := Nat.le_trans hHigh (by split <;> decide)
    rw [encodeChar_three ha (by omega) hc (by omega) (by omega)]
    rfl
  · obtain ⟨-, hFour, hBits⟩ := first_of_four a ha
    rw [hFour, hBits] at hTail
    obtain ⟨b, rest, rfl, hLow, hHigh, hLast⟩ :=
      exists_bits_of_takeTail (by split <;> decide) hTail
    obtain ⟨c, hc, d, hd, rfl, rfl⟩ := exists_two_of_takeTail hLast
    have hLong : a = 0 → 0x90 ≤ 0x80 + b := fun hZero => by simpa [hZero] using hLow
    have hPast : a = 4 → 0x80 + b ≤ 0x8f := fun hFirst => by simpa [hFirst] using hHigh
    have hMost : 0x80 + b ≤ 0xbf := Nat.le_trans hHigh (by split <;> decide)
    rw [encodeChar_four ha (by omega) hc hd (by omega) (by omega)]
    rfl

end Characters

/-- A sequence that breaks off is a defect at its place. -/
theorem decodeFrom_broken {offset : Nat} {done : List Char} {first : UInt8} {rest fit : List UInt8}
    {bound : UInt8 × UInt8} {bounds : List (UInt8 × UInt8)} {reason : Reason}
    (hFirst : ¬first < 0x80) (hBounds : tailBounds first = bound :: bounds)
    (hTail : takeTail (bound :: bounds) (leadBits first) rest = .error (fit, reason)) :
    decodeFrom offset done (first :: rest) = .error ⟨offset, first :: fit, reason⟩ := by
  rw [decodeFrom, if_neg hFirst]
  split
  next hNone => rw [hBounds] at hNone; cases hNone
  next bound' bounds' hSome =>
    rw [hBounds] at hSome
    cases hSome
    split
    next hError =>
      rw [hTail] at hError
      cases hError
      rfl
    next hOk => rw [hTail] at hOk; cases hOk

theorem encode_cons (c : Char) (cs : List Char) : encode (c :: cs) = encodeChar c ++ encode cs :=
  rfl

/-- What was decoded after some characters was encoded. -/
theorem exists_encode_of_decodeFrom {offset : Nat} {done cs : List Char} {bytes : List UInt8}
    (hDecode : decodeFrom offset done bytes = .ok cs) :
    ∃ ds, cs = done.reverse ++ ds ∧ bytes = encode ds := by
  induction offset, done, bytes using decodeFrom.induct generalizing cs with
  | case1 offset done =>
      rw [decodeFrom] at hDecode
      exact ⟨[], by simpa using hDecode.symm, rfl⟩
  | case2 offset done first rest hPlain ih =>
      rw [decodeFrom_plain hPlain] at hDecode
      obtain ⟨ds, rfl, rfl⟩ := ih hDecode
      refine ⟨Char.ofNat first.toNat :: ds, by simp, ?_⟩
      have hFirst : encodeChar (Char.ofNat first.toNat) = [first] := by
        rw [encodeChar_one (UInt8.lt_iff_toNat_lt.mp hPlain)]
        simp
      rw [encode_cons, hFirst]
      rfl
  | case3 offset done first rest hLong hNone =>
      rw [decodeFrom, if_neg hLong] at hDecode
      simp [hNone] at hDecode
  | case4 offset done first rest hLong bound bounds hBounds fit reason hTail =>
      rw [decodeFrom_broken hLong hBounds hTail] at hDecode
      cases hDecode
  | case5 offset done first rest hLong bound bounds hBounds point others hTail ih =>
      rw [decodeFrom_sequence hLong hBounds rfl hTail] at hDecode
      obtain ⟨ds, rfl, rfl⟩ := ih hDecode
      refine ⟨Char.ofNat point :: ds, by simp, ?_⟩
      rw [encode_cons]
      exact eq_encodeChar_of_takeTail hBounds hTail

/-- Bytes are decoded exactly if they are those of a text, and then to that text. -/
theorem decode_eq_ok_iff {bytes : List UInt8} {cs : List Char} :
    decode bytes = .ok cs ↔ bytes = encode cs := by
  constructor
  · intro hDecode
    obtain ⟨ds, rfl, hBytes⟩ := exists_encode_of_decodeFrom hDecode
    simpa using hBytes
  · rintro rfl
    exact decode_encode cs

/-- Characters are encoded as in the core library. -/
theorem utf8EncodeChar_eq (c : Char) : String.utf8EncodeChar c = encodeChar c := by
  have hMost : c.toNat < 0x110000 := by
    have hValid : c.toNat < 0xd800 ∨ 0xdfff < c.toNat ∧ c.toNat < 0x110000 := c.valid
    omega
  have hNat : c.val.toNat = c.toNat := rfl
  simp only [String.utf8EncodeChar, encodeChar, hNat]
  generalize c.toNat = n at hMost
  by_cases hOne : n < 0x80
  · simp [hOne, show n ≤ 127 by omega]
  by_cases hTwo : n < 0x800
  · simp [hOne, hTwo, show ¬n ≤ 127 by omega, show n ≤ 2047 by omega, Nat.add_comm,
      show n / 64 % 32 = n / 64 by omega]
  by_cases hThree : n < 0x10000
  · simp [hOne, hTwo, hThree, show ¬n ≤ 127 by omega, show ¬n ≤ 2047 by omega,
      show n ≤ 65535 by omega, Nat.add_comm, show n / 4096 % 16 = n / 4096 by omega]
  · simp [hOne, hTwo, hThree, show ¬n ≤ 127 by omega, show ¬n ≤ 2047 by omega,
      show ¬n ≤ 65535 by omega, Nat.add_comm, show n / 262144 % 8 = n / 262144 by omega]

/-- The bytes of a string are those that the language gives it. -/
theorem encode_toList (text : String) : encode text.toList = text.toUTF8.data.toList := by
  have hBytes : text.toUTF8 = text.toList.utf8Encode := String.utf8Encode_toList.symm
  have hChars : encodeChar = String.utf8EncodeChar := funext fun c => (utf8EncodeChar_eq c).symm
  rw [hBytes, encode, hChars]
  exact List.toList_data_toByteArray.symm

end SyntaxSurvey.Text.Utf8
