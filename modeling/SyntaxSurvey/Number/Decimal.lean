import SyntaxSurvey.Number.Binary64
import SyntaxSurvey.Text.Blank
import SyntaxSurvey.Text.Word

/-! Reading decimal numbers: digits with an optional point and an optional exponent, and, in the
lenient form that command line values have, white space around them, digits of any script,
underscores between digits, and the words for infinity and for what is not a number. -/

namespace SyntaxSurvey.Number

/-- A decimal number as it was written: `digits * 10 ^ exponent`. -/
structure Decimal where
  digits : Nat
  exponent : Int
  deriving DecidableEq, Repr

namespace Decimal

def digit? (c : Char) : Option Nat :=
  if c.isDigit then some (c.toNat - '0'.toNat) else none

/-- The leading digits, appended to a number; with them their count and what follows. -/
def takeDigits (sofar count : Nat) : List Char → Nat × Nat × List Char
  | [] => (sofar, count, [])
  | c :: rest =>
    match digit? c with
    | some d => takeDigits (sofar * 10 + d) (count + 1) rest
    | none => (sofar, count, c :: rest)

/-- The whole text as a signed integer of at least one digit. -/
def readExponent? (cs : List Char) : Option Int :=
  let (negative, cs) := match cs with
    | '-' :: rest => (true, rest)
    | '+' :: rest => (false, rest)
    | _ => (false, cs)
  match takeDigits 0 0 cs with
  | (n, _ + 1, []) => some (if negative then -(n : Int) else n)
  | _ => none

/-- The whole text as digits with at most one point among them, at least one digit, and an
optional exponent. -/
def read? (cs : List Char) : Option Decimal :=
  let (whole, wholeCount, rest) := takeDigits 0 0 cs
  let (digits, fractionCount, rest) := match rest with
    | '.' :: rest => takeDigits whole 0 rest
    | _ => (whole, 0, rest)
  if wholeCount + fractionCount = 0 then none
  else match rest with
    | [] => some ⟨digits, -(fractionCount : Int)⟩
    | mark :: rest =>
      if mark = 'e' ∨ mark = 'E' then
        (readExponent? rest).map fun exponent => ⟨digits, exponent - fractionCount⟩
      else none

def toBinary64 (negative : Bool) (d : Decimal) : Binary64 :=
  Binary64.ofDecimal negative d.digits d.exponent

end Decimal

namespace Binary64

def isPlainBlank (c : Char) : Bool :=
  c == ' ' || (decide (0x09 ≤ c.toNat) && decide (c.toNat ≤ 0x0d))

/-- Digits of other scripts become ordinary digits, and white space of the wider sort an
ordinary space. -/
def plainChar (c : Char) : Char :=
  if c.toNat < 0x80 then c
  else if Text.isBlank c then ' '
  else match Text.decimalValue? c with
    | some value => Nat.digitChar value
    | none => c

/-- The text without its underscores, each of which has to stand between two digits. -/
def dropUnderscores? (previous : Option Char) : List Char → Option (List Char)
  | [] => some []
  | '_' :: rest =>
    if (previous.any Char.isDigit) && (rest.head?.any Char.isDigit) then
      dropUnderscores? (some '_') rest
    else none
  | c :: rest => (dropUnderscores? (some c) rest).map (c :: ·)

def ofWord? (negative : Bool) (cs : List Char) : Option Binary64 :=
  let word := String.ofList (cs.map Char.toLower)
  if word = "inf" ∨ word = "infinity" then some (.infinite negative)
  else if word = "nan" then some (.notANumber negative)
  else none

def read? (s : String) : Option Binary64 :=
  let trimmed := ((s.toList.map plainChar).dropWhile isPlainBlank).reverse.dropWhile isPlainBlank
  match dropUnderscores? none trimmed.reverse with
  | none => none
  | some cs =>
    let (negative, cs) := match cs with
      | '-' :: rest => (true, rest)
      | '+' :: rest => (false, rest)
      | _ => (false, cs)
    match Decimal.read? cs with
    | some decimal => some (decimal.toBinary64 negative)
    | none => ofWord? negative cs

end Binary64

end SyntaxSurvey.Number
