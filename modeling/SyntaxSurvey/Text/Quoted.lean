import SyntaxSurvey.Text.Printable

/-! Quoted texts as they stand in messages. A text is put between single quotes, or between
double quotes when it holds a single quote and no double one; the backslash, the quote in use and
every character that is not printable are escaped. A quoted text therefore never spans lines. -/

namespace SyntaxSurvey.Text

/-- The last `width` hexadecimal digits of a number, in lower case. -/
def hexDigits (width n : Nat) : List Char :=
  match width with
  | 0 => []
  | width + 1 => hexDigits width (n / 16) ++ [Nat.digitChar (n % 16)]

/-- A character between the given quotes. Code points are written with two, four or eight
hexadecimal digits, whichever is the first that has room. -/
def escapeChar (quote c : Char) : List Char :=
  if c == '\\' || c == quote then ['\\', c]
  else if c == '\n' then ['\\', 'n']
  else if c == '\r' then ['\\', 'r']
  else if c == '\t' then ['\\', 't']
  else if isPrintable c then [c]
  else if c.toNat < 0x100 then '\\' :: 'x' :: hexDigits 2 c.toNat
  else if c.toNat < 0x10000 then '\\' :: 'u' :: hexDigits 4 c.toNat
  else '\\' :: 'U' :: hexDigits 8 c.toNat

def quoteFor (cs : List Char) : Char :=
  if cs.contains '\'' && !cs.contains '"' then '"' else '\''

def quoted (s : String) : String :=
  let quote := quoteFor s.toList
  String.ofList (quote :: s.toList.flatMap (escapeChar quote) ++ [quote])

/-- A byte between the given quotes. All but the printable ASCII characters are escaped. -/
def escapeByte (quote : Char) (byte : UInt8) : List Char :=
  if 0x7f ≤ byte.toNat then '\\' :: 'x' :: hexDigits 2 byte.toNat
  else escapeChar quote (Char.ofNat byte.toNat)

/-- A byte sequence in quotes, with a mark that tells it from a text. -/
def quotedBytes (bytes : List UInt8) : String :=
  let quote := quoteFor (bytes.map fun byte => Char.ofNat byte.toNat)
  String.ofList ('b' :: quote :: bytes.flatMap (escapeByte quote) ++ [quote])

end SyntaxSurvey.Text
