import Mathlib.Data.List.Basic
import SyntaxSurvey.Text.Utf8

/-! What is encoded is decoded again. -/

namespace SyntaxSurvey.Text.Utf8

section Sequences

variable {offset : Nat} {done : List Char} {first : UInt8} {rest others : List UInt8}
  {bound : UInt8 × UInt8} {bounds : List (UInt8 × UInt8)} {point : Nat}

/-- A byte below 128 is a character. -/
theorem decodeFrom_plain (h : first < 0x80) :
    decodeFrom offset done (first :: rest)
      = decodeFrom (offset + 1) (Char.ofNat first.toNat :: done) rest := by
  rw [decodeFrom, if_pos h]

/-- A first byte with all that belong to it is a character. -/
theorem decodeFrom_sequence {bits : Nat} (hFirst : ¬first < 0x80)
    (hBounds : tailBounds first = bound :: bounds) (hBits : leadBits first = bits)
    (hTail : takeTail (bound :: bounds) bits rest = .ok (point, others)) :
    decodeFrom offset done (first :: rest)
      = decodeFrom (offset + bounds.length + 2) (Char.ofNat point :: done) others := by
  subst hBits
  rw [decodeFrom, if_neg hFirst]
  split
  next hNone => rw [hBounds] at hNone; cases hNone
  next bound' bounds' hSome =>
    rw [hBounds] at hSome
    cases hSome
    split
    next hError => rw [hTail] at hError; cases hError
    next hOk =>
      rw [hTail] at hOk
      cases hOk
      rfl

/-- The byte that carries six bits of a code point. -/
theorem takeTail_cons {low high : UInt8} {bits whole : Nat} (hLow : low.toNat ≤ 0x80 + bits)
    (hHigh : 0x80 + bits ≤ high.toNat)
    (hTail : takeTail bounds (point * 64 + bits) rest = .ok (whole, others)) :
    takeTail ((low, high) :: bounds) point ((0x80 + bits).toUInt8 :: rest)
      = .ok (whole, others) := by
  have hByte : (0x80 + bits).toUInt8.toNat = 0x80 + bits := by
    have := high.toNat_lt
    rw [UInt8.toNat_ofNat']
    omega
  have hFits : low ≤ (0x80 + bits).toUInt8 ∧ (0x80 + bits).toUInt8 ≤ high := by
    rw [UInt8.le_iff_toNat_le, UInt8.le_iff_toNat_le, hByte]
    exact ⟨hLow, hHigh⟩
  rw [takeTail, if_pos hFits, hByte, Nat.add_sub_cancel_left, hTail]

end Sequences

theorem first_of_two : ∀ bits < 0x20, 2 ≤ bits →
    ¬(0xc0 + bits).toUInt8 < 0x80 ∧ tailBounds (0xc0 + bits).toUInt8 = [(0x80, 0xbf)]
      ∧ leadBits (0xc0 + bits).toUInt8 = bits := by
  decide

theorem first_of_three : ∀ bits < 0x10,
    ¬(0xe0 + bits).toUInt8 < 0x80
      ∧ tailBounds (0xe0 + bits).toUInt8
        = [(if bits = 0 then 0xa0 else 0x80, if bits = 0xd then 0x9f else 0xbf), (0x80, 0xbf)]
      ∧ leadBits (0xe0 + bits).toUInt8 = bits := by
  decide

theorem first_of_four : ∀ bits < 5,
    ¬(0xf0 + bits).toUInt8 < 0x80
      ∧ tailBounds (0xf0 + bits).toUInt8
        = [(if bits = 0 then 0x90 else 0x80, if bits = 4 then 0x8f else 0xbf), (0x80, 0xbf),
          (0x80, 0xbf)]
      ∧ leadBits (0xf0 + bits).toUInt8 = bits := by
  decide

section Characters

variable {offset n : Nat} {done : List Char} {rest : List UInt8}

/-- The last byte of a sequence adds its six bits. -/
theorem takeTail_last (point : Nat) {bits : Nat} (h : bits < 64) (rest : List UInt8) :
    takeTail [(0x80, 0xbf)] point ((0x80 + bits).toUInt8 :: rest)
      = .ok (point * 64 + bits, rest) :=
  takeTail_cons (Nat.le_add_right _ _) (by show 0x80 + bits ≤ 0xbf; omega) rfl

theorem takeTail_two (point n : Nat) (rest : List UInt8) :
    takeTail [(0x80, 0xbf), (0x80, 0xbf)] point
        ((0x80 + n / 64 % 64).toUInt8 :: (0x80 + n % 64).toUInt8 :: rest)
      = .ok ((point * 64 + n / 64 % 64) * 64 + n % 64, rest) :=
  takeTail_cons (Nat.le_add_right _ _) (by show 0x80 + n / 64 % 64 ≤ 0xbf; omega)
    (takeTail_last _ (Nat.mod_lt n (by decide)) rest)

theorem decodeFrom_one (h : n < 0x80) :
    decodeFrom offset done (n.toUInt8 :: rest)
      = decodeFrom (offset + 1) (Char.ofNat n :: done) rest := by
  have hByte : n.toUInt8.toNat = n := by
    rw [UInt8.toNat_ofNat']
    omega
  have hPlain : n.toUInt8 < 0x80 := by
    rw [UInt8.lt_iff_toNat_lt, hByte]
    exact h
  rw [decodeFrom_plain hPlain, hByte]

theorem decodeFrom_two (hLeast : 0x80 ≤ n) (hMost : n < 0x800) :
    decodeFrom offset done ((0xc0 + n / 64).toUInt8 :: (0x80 + n % 64).toUInt8 :: rest)
      = decodeFrom (offset + 2) (Char.ofNat n :: done) rest := by
  obtain ⟨hFirst, hBounds, hBits⟩ := first_of_two (n / 64) (by omega) (by omega)
  have hWhole : n / 64 * 64 + n % 64 = n := by omega
  have hTail := takeTail_last (n / 64) (Nat.mod_lt n (by decide)) rest
  rw [hWhole] at hTail
  exact decodeFrom_sequence hFirst hBounds hBits hTail

/-- The three bytes for a code are decoded as its character, unless it is half of a pair. -/
theorem decodeFrom_three (hLeast : 0x800 ≤ n) (hMost : n < 0x10000)
    (hWhole : n < 0xd800 ∨ 0xdfff < n) :
    decodeFrom offset done ((0xe0 + n / 4096).toUInt8 :: (0x80 + n / 64 % 64).toUInt8
        :: (0x80 + n % 64).toUInt8 :: rest)
      = decodeFrom (offset + 3) (Char.ofNat n :: done) rest := by
  obtain ⟨hFirst, hBounds, hBits⟩ := first_of_three (n / 4096) (by omega)
  have hPoint : (n / 4096 * 64 + n / 64 % 64) * 64 + n % 64 = n := by omega
  refine decodeFrom_sequence hFirst hBounds hBits (takeTail_cons ?_ ?_ ?_)
  · split
    · show 0xa0 ≤ 0x80 + n / 64 % 64
      omega
    · exact Nat.le_add_right _ _
  · split
    · show 0x80 + n / 64 % 64 ≤ 0x9f
      omega
    · show 0x80 + n / 64 % 64 ≤ 0xbf
      omega
  · rw [takeTail_last _ (Nat.mod_lt n (by decide)), hPoint]

theorem decodeFrom_four (hLeast : 0x10000 ≤ n) (hMost : n < 0x110000) :
    decodeFrom offset done ((0xf0 + n / 262144).toUInt8 :: (0x80 + n / 4096 % 64).toUInt8
        :: (0x80 + n / 64 % 64).toUInt8 :: (0x80 + n % 64).toUInt8 :: rest)
      = decodeFrom (offset + 4) (Char.ofNat n :: done) rest := by
  obtain ⟨hFirst, hBounds, hBits⟩ := first_of_four (n / 262144) (by omega)
  have hPoint : ((n / 262144 * 64 + n / 4096 % 64) * 64 + n / 64 % 64) * 64 + n % 64 = n := by
    omega
  refine decodeFrom_sequence hFirst hBounds hBits (takeTail_cons ?_ ?_ ?_)
  · split
    · show 0x90 ≤ 0x80 + n / 4096 % 64
      omega
    · exact Nat.le_add_right _ _
  · split
    · show 0x80 + n / 4096 % 64 ≤ 0x8f
      omega
    · show 0x80 + n / 4096 % 64 ≤ 0xbf
      omega
  · rw [takeTail_two, hPoint]

end Characters

/-- The bytes for a character are decoded as it, whether its code is below the halves of pairs or
above them. -/
theorem decodeFrom_encodeChar (c : Char) (offset : Nat) (done : List Char) (rest : List UInt8) :
    ∃ later, decodeFrom offset done (encodeChar c ++ rest) = decodeFrom later (c :: done) rest := by
  have hValid : c.toNat < 0xd800 ∨ 0xdfff < c.toNat ∧ c.toNat < 0x110000 := c.valid
  have hStep : ∃ later, decodeFrom offset done (encodeChar c ++ rest)
      = decodeFrom later (Char.ofNat c.toNat :: done) rest := by
    rw [encodeChar]
    split
    next hOne => exact ⟨_, decodeFrom_one hOne⟩
    next hMore =>
    split
    next hTwo => exact ⟨_, decodeFrom_two (Nat.not_lt.mp hMore) hTwo⟩
    next hLong =>
    split
    next hThree => exact ⟨_, decodeFrom_three (Nat.not_lt.mp hLong) hThree (by omega)⟩
    next hFour => exact ⟨_, decodeFrom_four (Nat.not_lt.mp hFour) (by omega)⟩
  rwa [Char.ofNat_toNat] at hStep

theorem decodeFrom_encode (cs : List Char) (offset : Nat) (done : List Char) :
    decodeFrom offset done (encode cs) = .ok (done.reverse ++ cs) := by
  induction cs generalizing offset done with
  | nil =>
      rw [List.append_nil]
      exact decodeFrom.eq_1 offset done
  | cons c cs ih =>
      obtain ⟨later, hStep⟩ := decodeFrom_encodeChar c offset done (encode cs)
      rw [encode, List.flatMap_cons, ← encode, hStep, ih]
      simp

/-- Encoded characters are decoded as they were. -/
theorem decode_encode (cs : List Char) : decode (encode cs) = .ok cs :=
  decodeFrom_encode cs 0 []

end SyntaxSurvey.Text.Utf8
