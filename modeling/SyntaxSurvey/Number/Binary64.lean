import SyntaxSurvey.Number.Rounding

/-! Binary floating point numbers of 64 bits, as exact values: a number is a signed multiple of a
power of two, an infinity, or not a number. All operations go through one function that rounds a
quotient of natural numbers to the nearest number of the format. -/

namespace SyntaxSurvey.Number

/-- A number of the 64-bit binary format. A finite one is `mantissa * 2 ^ exponent`; the
functions below build it with `mantissa < 2 ^ 53` and with the smallest exponent, but not below
`-1074`, that allows this. -/
inductive Binary64 where
  | finite (negative : Bool) (mantissa : Nat) (exponent : Int)
  | infinite (negative : Bool)
  | notANumber (negative : Bool)
  deriving DecidableEq, Repr, Inhabited

namespace Binary64

def leastExponent : Int := -1074

def greatestExponent : Int := 971

def zero (negative : Bool) : Binary64 :=
  .finite negative 0 leastExponent

/-- The exponent `e` with `2 ^ e ≤ num / den < 2 ^ (e + 1)`, for a positive quotient. -/
def binaryOrder (num den : Nat) : Int :=
  let guess : Int := (num.log2 : Int) - (den.log2 : Int)
  let below := if 0 ≤ guess then decide (num < den * Nat.pow 2 guess.toNat)
    else decide (num * Nat.pow 2 (-guess).toNat < den)
  if below then guess - 1 else guess

/-- The number nearest to `num / den`, with the given sign. A tie goes to the even mantissa, and
what is too large becomes an infinity. -/
def nearest (negative : Bool) (num den : Nat) : Binary64 :=
  if num = 0 then zero negative
  else
    let exponent := max (binaryOrder num den - 52) leastExponent
    let mantissa := if 0 ≤ exponent then nearestEven num (den * Nat.pow 2 exponent.toNat)
      else nearestEven (num * Nat.pow 2 (-exponent).toNat) den
    let (mantissa, exponent) :=
      if mantissa = Nat.pow 2 53 then (Nat.pow 2 52, exponent + 1) else (mantissa, exponent)
    if greatestExponent < exponent then .infinite negative
    else .finite negative mantissa exponent

/-- The number nearest to `digits * 10 ^ exponent`. Exponents that are certain to give an
infinity or zero are not computed with. -/
def ofDecimal (negative : Bool) (digits : Nat) (exponent : Int) : Binary64 :=
  if digits = 0 then zero negative
  else
    let order := exponent + (Nat.toDigits 10 digits).length
    if 320 < order then .infinite negative
    else if order < -340 then zero negative
    else if 0 ≤ exponent then nearest negative (digits * Nat.pow 10 exponent.toNat) 1
    else nearest negative digits (Nat.pow 10 (-exponent).toNat)

/-- The number nearest to a multiple of a number. -/
def scale (factor : Nat) : Binary64 → Binary64
  | .finite negative mantissa exponent =>
    if 0 ≤ exponent then nearest negative (factor * mantissa * Nat.pow 2 exponent.toNat) 1
    else nearest negative (factor * mantissa) (Nat.pow 2 (-exponent).toNat)
  | x => x

/-- The integer nearest to a finite number, a tie going to the even one. -/
def toInt? : Binary64 → Option Int
  | .finite negative mantissa exponent =>
    let size := if 0 ≤ exponent then mantissa * Nat.pow 2 exponent.toNat
      else nearestEven mantissa (Nat.pow 2 (-exponent).toNat)
    some (if negative then -(size : Int) else size)
  | _ => none

/-- Comparison with zero. What is not a number compares with nothing. -/
def isAtMostZero : Binary64 → Bool
  | .finite negative mantissa _ => negative || mantissa == 0
  | .infinite negative => negative
  | .notANumber _ => false

def toBits (x : Binary64) : Nat :=
  let withSign (negative : Bool) (bits : Nat) := if negative then Nat.pow 2 63 + bits else bits
  match x with
  | .finite negative mantissa exponent =>
    if mantissa < Nat.pow 2 52 then withSign negative mantissa
    else
      let place := (exponent - leastExponent + 1).toNat
      withSign negative (place * Nat.pow 2 52 + (mantissa - Nat.pow 2 52))
  | .infinite negative => withSign negative (0x7ff * Nat.pow 2 52)
  | .notANumber negative => withSign negative (0xfff * Nat.pow 2 51)

end Binary64

end SyntaxSurvey.Number
