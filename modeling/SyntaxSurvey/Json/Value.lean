import SyntaxSurvey.Number.Quantity
import SyntaxSurvey.Text.Quoted
import SyntaxSurvey.Text.Raw

/-! JSON values and their written form, laid out over lines with two spaces of indentation a
level. All characters but the quote, the backslash and the control characters below the space
stand for themselves. The texts of a value are strings, or raw texts where it is so said. -/

namespace SyntaxSurvey

open Number (Quantity)
open Text (Raw)

/-- A JSON value. The fields of an object keep their order. -/
inductive Json (τ : Type := String) where
  | null
  | bool (value : Bool)
  | number (value : Quantity)
  | string (value : τ)
  | array (items : List (Json τ))
  | object (fields : List (String × Json τ))
  deriving Repr, Inhabited

namespace Json

variable {τ : Type}

def ofInt (n : Int) : Json τ :=
  .number (.integer n)

def ofText? (s : Option τ) : Json τ :=
  match s with
  | some s => .string s
  | none => .null

def escapeChar (c : Char) : List Char :=
  if c == '"' || c == '\\' then ['\\', c]
  else if c == '\n' then ['\\', 'n']
  else if c == '\r' then ['\\', 'r']
  else if c == '\t' then ['\\', 't']
  else if c == '\x08' then ['\\', 'b']
  else if c == '\x0c' then ['\\', 'f']
  else if c.toNat < 0x20 then '\\' :: 'u' :: Text.hexDigits 4 c.toNat
  else [c]

def writeString (s : String) : List Char :=
  '"' :: s.toList.flatMap escapeChar ++ ['"']

/-- A code point within quotes. A half of a pair stands for itself. -/
def escapePoint : Text.Point → Raw
  | .char c => .ofChars (escapeChar c)
  | .half code => [.half code]

def writeRaw (s : Raw) : Raw :=
  .char '"' :: s.flatMap escapePoint ++ [.char '"']

/-- The start of a line of the given level. -/
def newline (level : Nat) : List Char :=
  '\n' :: List.replicate (2 * level) ' '

/-- A piece of the written form, as it is handed to the file: characters of the layout, a number, or a
text that is put in quotes. -/
inductive Piece (τ : Type) where
  | layout (cs : List Char)
  | number (value : Quantity)
  | text (value : τ)

mutual

/-- The pieces of a value that stands on a line of the given level. -/
def pieces (level : Nat) : Json τ → List (Piece τ)
  | .null => [.layout "null".toList]
  | .bool value => [.layout (if value then "true" else "false").toList]
  | .number value => [.number value]
  | .string value => [.text value]
  | .array [] => [.layout "[]".toList]
  | .array (item :: items) =>
    .layout ('[' :: newline (level + 1)) :: pieces (level + 1) item
      ++ piecesOfItems (level + 1) items ++ [.layout (newline level ++ [']'])]
  | .object [] => [.layout ['\x7b', '\x7d']]
  | .object ((key, value) :: fields) =>
    .layout ('\x7b' :: newline (level + 1) ++ writeString key ++ ": ".toList)
      :: pieces (level + 1) value ++ piecesOfFields (level + 1) fields
      ++ [.layout (newline level ++ ['\x7d'])]

/-- The pieces of the items after the first one. -/
def piecesOfItems (level : Nat) : List (Json τ) → List (Piece τ)
  | [] => []
  | item :: items =>
    .layout (',' :: newline level) :: pieces level item ++ piecesOfItems level items

def piecesOfFields (level : Nat) : List (String × Json τ) → List (Piece τ)
  | [] => []
  | (key, value) :: fields =>
    .layout (',' :: newline level ++ writeString key ++ ": ".toList) :: pieces level value
      ++ piecesOfFields level fields

end

def Piece.chars : Piece String → List Char
  | .layout cs => cs
  | .number value => value.text.toList
  | .text value => writeString value

/-- What keeps a piece from being encoded: a half of a pair in a text, or an integer of more digits than
are allowed. -/
inductive Obstacle where
  | half (obstacle : Raw.Obstacle)
  | digits (most : Nat)
  deriving DecidableEq, Repr

def Obstacle.message : Obstacle → String
  | .half obstacle => obstacle.message
  | .digits most =>
    s!"Exceeds the limit ({most} digits) for integer string conversion; "
      ++ "use sys.set_int_max_str_digits() to increase the limit"

/-- The bytes of a piece, where integers have at most so many digits. -/
def Piece.encode (limit : Option Nat) : Piece Raw → Except Obstacle (List UInt8)
  | .layout cs => .ok (Text.Utf8.encode cs)
  | .number value =>
    match value.exceeded? limit with
    | some most => .error (.digits most)
    | none => .ok (Text.Utf8.encode value.text.toList)
  | .text value => (writeRaw value).encode.mapError .half

/-- The bytes of pieces, up to the first one that cannot be encoded. -/
def encodePieces (limit : Option Nat) : List (Piece Raw) → List UInt8 × Option Obstacle
  | [] => ([], none)
  | piece :: pieces =>
    match piece.encode limit with
    | .error obstacle => ([], some obstacle)
    | .ok bytes =>
      let (others, obstacle) := encodePieces limit pieces
      (bytes ++ others, obstacle)

/-- The written form of a value that stands on a line of the given level. -/
def write (level : Nat) (value : Json) : List Char :=
  (pieces level value).flatMap Piece.chars

def writeItems (level : Nat) (items : List Json) : List Char :=
  (piecesOfItems level items).flatMap Piece.chars

def writeFields (level : Nat) (fields : List (String × Json)) : List Char :=
  (piecesOfFields level fields).flatMap Piece.chars

def text (value : Json) : String :=
  String.ofList (write 0 value)

def field? (name : String) : Json τ → Option (Json τ)
  | .object fields => fields.lookup name
  | _ => none

end Json

end SyntaxSurvey
