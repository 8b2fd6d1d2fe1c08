import SyntaxSurvey.Number.Quantity

/-! Lengths of time, as they are measured while files are surveyed. -/

namespace SyntaxSurvey

open Number (Binary64 Quantity nearestEven)

structure Duration where
  milliseconds : Nat
  deriving DecidableEq, Repr, Inhabited

namespace Duration

def seconds (d : Duration) : Quantity :=
  .real (Binary64.ofDecimal false d.milliseconds (-3))

/-- The length in seconds with a fixed number of decimal places. -/
def text (places : Nat) (d : Duration) : String :=
  let unit := Nat.pow 10 places
  let count := nearestEven (d.milliseconds * unit) 1000
  let fraction := (toString (count % unit)).toList
  let padding := List.replicate (places - fraction.length) '0'
  s!"{count / unit}." ++ String.ofList (padding ++ fraction) ++ "s"

end Duration

end SyntaxSurvey
