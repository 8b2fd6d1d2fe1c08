import SyntaxSurvey.Text.Utf8

/-! Raw texts: code points in a row, among them halves of pairs, which are no characters on their
own. The name of a file is such a text where its bytes are not UTF-8. Halves have no bytes, so that
a raw text with one cannot be encoded. -/

namespace SyntaxSurvey.Text

/-- A code point: a character, or a half of a pair that stands alone. The code of a half is counted
from the first one, `0xd800`. -/
inductive Point where
  | char (c : Char)
  | half (code : Fin 0x800)
  deriving DecidableEq, Repr

namespace Point

def isHalf : Point → Bool
  | .char _ => false
  | .half _ => true

/-- The character that is shown for a code point; halves are replaced. -/
def shown : Point → Char
  | .char c => c
  | .half _ => '\ufffd'

end Point

abbrev Raw := List Point

namespace Raw

def ofChars (cs : List Char) : Raw :=
  cs.map .char

def ofString (s : String) : Raw :=
  ofChars s.toList

/-- The string that is shown for a raw text; it is the text itself where that is one. -/
def shown (s : Raw) : String :=
  String.ofList (s.map Point.shown)

/-- What keeps a raw text from being encoded: the first half in it, its position, and how many
halves stand there in a row. -/
structure Obstacle where
  code : Fin 0x800
  position : Nat
  count : Nat
  deriving DecidableEq, Repr

/-- Wording of an obstacle; a half that stands alone is shown, several are given by their first and
last position. -/
def Obstacle.message (o : Obstacle) : String :=
  let what :=
    if o.count = 1 then
      s!"character '\\u{String.ofList (hexDigits 4 (0xd800 + o.code.val))}' in position {o.position}"
    else s!"characters in position {o.position}-{o.position + o.count - 1}"
  s!"'utf-8' codec can't encode {what}: surrogates not allowed"

/-- Encode code points of which `position` others stood before. -/
def encodeFrom (position : Nat) : Raw → Except Obstacle (List UInt8)
  | [] => .ok []
  | .char c :: rest => (encodeFrom (position + 1) rest).map (Utf8.encodeChar c ++ ·)
  | .half code :: rest => .error ⟨code, position, (rest.takeWhile Point.isHalf).length + 1⟩

def encode (s : Raw) : Except Obstacle (List UInt8) :=
  encodeFrom 0 s

end Raw

end SyntaxSurvey.Text
