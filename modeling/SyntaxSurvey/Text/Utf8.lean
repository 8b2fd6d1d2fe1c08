import SyntaxSurvey.Text.Quoted

/-! Reading UTF-8. A byte sequence is decoded from left to right; the first defect ends the
reading and is reported with the bytes it spans, which are the longest start of a well-formed
sequence that stands at that place, and with what is wrong after them. -/

namespace SyntaxSurvey.Text.Utf8

inductive Reason where
  /-- The first byte starts no sequence. -/
  | start
  /-- A byte is not what may follow the bytes before it. -/
  | continuation
  /-- The bytes end within a sequence. -/
  | ending
  deriving DecidableEq, Repr

/-- A place where bytes are not UTF-8: the number of bytes before it, the bytes it spans, and
the reason. -/
structure Defect where
  offset : Nat
  span : List UInt8
  reason : Reason
  deriving DecidableEq, Repr

def Reason.text : Reason → String
  | .start => "invalid start byte"
  | .continuation => "invalid continuation byte"
  | .ending => "unexpected end of data"

/-- Wording of a defect; one byte is shown, several are given by their first and last
position. -/
def Defect.message (d : Defect) : String :=
  let what := match d.span with
    | [byte] => s!"byte 0x{String.ofList (hexDigits 2 byte.toNat)} in position {d.offset}"
    | span => s!"bytes in position {d.offset}-{d.offset + span.length - 1}"
  s!"'utf-8' codec can't decode {what}: {d.reason.text}"

/-- The inclusive bounds of the byte that may follow a first byte: overlong forms, surrogates
and values past the last code point are cut off here. `none` for a byte that starts no longer
sequence. -/
def secondBounds? (first : UInt8) : Option (UInt8 × UInt8) :=
  if 0xc2 ≤ first ∧ first ≤ 0xdf then some (0x80, 0xbf)
  else if first = 0xe0 then some (0xa0, 0xbf)
  else if first = 0xed then some (0x80, 0x9f)
  else if 0xe1 ≤ first ∧ first ≤ 0xef then some (0x80, 0xbf)
  else if first = 0xf0 then some (0x90, 0xbf)
  else if first = 0xf4 then some (0x80, 0x8f)
  else if 0xf1 ≤ first ∧ first ≤ 0xf3 then some (0x80, 0xbf)
  else none

/-- The bounds of the bytes after the first one. -/
def tailBounds (first : UInt8) : List (UInt8 × UInt8) :=
  match secondBounds? first with
  | none => []
  | some bounds =>
    bounds :: List.replicate ((if first < 0xe0 then 0 else if first < 0xf0 then 1 else 2))
      (0x80, 0xbf)

/-- The payload of a first byte. -/
def leadBits (first : UInt8) : Nat :=
  if first < 0xe0 then first.toNat - 0xc0
  else if first < 0xf0 then first.toNat - 0xe0
  else first.toNat - 0xf0

/-- Take the bytes that the bounds ask for. The code point is gathered six bits at a time;
on failure the bytes that did fit are returned with the reason. -/
def takeTail : List (UInt8 × UInt8) → Nat → List UInt8 →
    Except (List UInt8 × Reason) (Nat × List UInt8)
  | [], point, rest => .ok (point, rest)
  | _ :: _, _, [] => .error ([], .ending)
  | (low, high) :: bounds, point, byte :: rest =>
    if low ≤ byte ∧ byte ≤ high then
      match takeTail bounds (point * 64 + (byte.toNat - 0x80)) rest with
      | .ok done => .ok done
      | .error (fit, reason) => .error (byte :: fit, reason)
    else .error ([], .continuation)

/-- What `takeTail` leaves is no longer than what it was given. -/
theorem takeTail_length_le {bounds : List (UInt8 × UInt8)} {point : Nat} {bytes : List UInt8}
    {result : Nat × List UInt8} (h : takeTail bounds point bytes = .ok result) :
    result.2.length ≤ bytes.length := by
  induction bounds generalizing point bytes with
  | nil =>
    simp only [takeTail, Except.ok.injEq] at h
    subst h
    exact Nat.le_refl _
  | cons bound bounds ih =>
    cases bytes with
    | nil => simp [takeTail] at h
    | cons byte rest =>
      simp only [takeTail] at h
      split at h
      · split at h
        next done hdone =>
          obtain rfl : done = result := by simpa using h
          exact Nat.le_succ_of_le (ih hdone)
        next => simp at h
      · simp at h

/-- Decode bytes of which `offset` others stood before; `done` holds the characters of those,
last one first. -/
def decodeFrom (offset : Nat) (done : List Char) (bytes : List UInt8) :
    Except Defect (List Char) :=
  match bytes with
  | [] => .ok done.reverse
  | first :: rest =>
    if first < 0x80 then decodeFrom (offset + 1) (Char.ofNat first.toNat :: done) rest
    else match tailBounds first with
      | [] => .error ⟨offset, [first], .start⟩
      | bound :: bounds =>
        match h : takeTail (bound :: bounds) (leadBits first) rest with
        | .error (fit, reason) => .error ⟨offset, first :: fit, reason⟩
        | .ok (point, rest') =>
          decodeFrom (offset + bounds.length + 2) (Char.ofNat point :: done) rest'
termination_by bytes.length
decreasing_by
  · simp
  · exact Nat.lt_succ_of_le (takeTail_length_le h)

def decode (bytes : List UInt8) : Except Defect (List Char) :=
  decodeFrom 0 [] bytes

def encodeChar (c : Char) : List UInt8 :=
  let n := c.toNat
  if n < 0x80 then [n.toUInt8]
  else if n < 0x800 then [(0xc0 + n / 64).toUInt8, (0x80 + n % 64).toUInt8]
  else if n < 0x10000 then
    [(0xe0 + n / 4096).toUInt8, (0x80 + n / 64 % 64).toUInt8, (0x80 + n % 64).toUInt8]
  else
    [(0xf0 + n / 262144).toUInt8, (0x80 + n / 4096 % 64).toUInt8, (0x80 + n / 64 % 64).toUInt8,
      (0x80 + n % 64).toUInt8]

def encode (cs : List Char) : List UInt8 :=
  cs.flatMap encodeChar

end SyntaxSurvey.Text.Utf8
