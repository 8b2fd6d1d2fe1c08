import SyntaxSurvey.Number.Decimal

/-! The shortest decimal text of a number: as few digits as are needed for the text to be read
back as the same number, and among those the nearest. The layout of the digits is a separate
decision. -/

namespace SyntaxSurvey.Number.Binary64

/-- The greatest `p` with `10 ^ p ≤ mantissa * 2 ^ exponent`, for a positive mantissa. The value
is looked at with 400 decimal places, which is more than any number of the format needs for its
first digit. -/
def decimalOrder (mantissa : Nat) (exponent : Int) : Int :=
  let enlarged := if 0 ≤ exponent then mantissa * Nat.pow 2 exponent.toNat * Nat.pow 10 400
    else mantissa * Nat.pow 10 400 / Nat.pow 2 (-exponent).toNat
  ((Nat.toDigits 10 enlarged).length : Int) - 401

/-- The quotient of a positive number and a power of ten, as a fraction of natural numbers. -/
def inUnits (mantissa : Nat) (exponent place : Int) : Nat × Nat :=
  (mantissa * Nat.pow 2 exponent.toNat * Nat.pow 10 (-place).toNat,
    Nat.pow 2 (-exponent).toNat * Nat.pow 10 place.toNat)

/-- The decimal with `count` digits that reads back as the number, if one of the two neighbours
of the number on that grid does; the nearer one if both do. -/
def withDigits? (mantissa : Nat) (exponent : Int) (count : Nat) : Option Decimal :=
  let place := decimalOrder mantissa exponent - (count : Int) + 1
  let (num, den) := inUnits mantissa exponent place
  let below : Decimal := ⟨num / den, place⟩
  let above : Decimal := ⟨num / den + 1, place⟩
  let same (d : Decimal) : Bool := d.toBinary64 false == .finite false mantissa exponent
  match same below, same above with
  | true, true => some (if nearestEven num den = num / den then below else above)
  | true, false => some below
  | false, true => some above
  | false, false => none

/-- The shortest decimal that reads back as a positive number. Seventeen digits always do. -/
def shortest (mantissa : Nat) (exponent : Int) : Decimal :=
  ((List.range 17).findSome? fun n => withDigits? mantissa exponent (n + 1)).getD
    ⟨mantissa, exponent⟩

/-- Digits without their trailing zeros, and how many were dropped. -/
def dropZeros (digits : List Char) : List Char × Nat :=
  let kept := (digits.reverse.dropWhile (· == '0')).reverse
  (kept, digits.length - kept.length)

def exponentText (n : Int) : String :=
  let digits := toString n.natAbs
  (if n < 0 then "-" else "+") ++ (if digits.length < 2 then "0" ++ digits else digits)

/-- Digits with the point `point` places after their start. Numbers from `10 ^ -4` up to but not
including `10 ^ 16` are written without an exponent, and then always with a digit after the
point. -/
def layout (digits : List Char) (point : Int) : String :=
  if -4 < point ∧ point ≤ 16 then
    if point ≤ 0 then
      "0." ++ String.ofList (List.replicate (-point).toNat '0' ++ digits)
    else
      let whole := digits.take point.toNat
      let padded := whole ++ List.replicate (point.toNat - whole.length) '0'
      let fraction := digits.drop point.toNat
      String.ofList padded ++ "." ++ (if fraction.isEmpty then "0" else String.ofList fraction)
  else
    let tail := digits.drop 1
    String.ofList (digits.take 1) ++ (if tail.isEmpty then "" else "." ++ String.ofList tail)
      ++ "e" ++ exponentText (point - 1)

def text : Binary64 → String
  | .finite negative mantissa exponent =>
    let sign := if negative then "-" else ""
    if mantissa = 0 then sign ++ "0.0"
    else
      let decimal := shortest mantissa exponent
      let (digits, dropped) := dropZeros (Nat.toDigits 10 decimal.digits)
      sign ++ layout digits (decimal.exponent + dropped + digits.length)
  | .infinite negative => if negative then "-Infinity" else "Infinity"
  | .notANumber _ => "NaN"

end SyntaxSurvey.Number.Binary64
