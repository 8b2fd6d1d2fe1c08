import SyntaxSurvey.Number.Shortest

/-! Numbers as they come in data and from callers: exact integers of any size, or numbers of the
64-bit format. -/

namespace SyntaxSurvey.Number

/-- A number of either sort. The integer one and the real number one differ, also in writing. -/
inductive Quantity where
  | integer (n : Int)
  | real (x : Binary64)
  deriving DecidableEq, Repr, Inhabited

namespace Quantity

def text : Quantity → String
  | .integer n => toString n
  | .real x => x.text

/-- The digits that an integer may have in a text, where nothing else is set. -/
def mostDigits : Nat := 4300

/-- The limit of digits that a number is beyond, if there is a limit. Only integers are held to it. -/
def exceeded? (limit : Option Nat) : Quantity → Option Nat
  | .integer n => limit.filter fun most => Nat.pow 10 most ≤ n.natAbs
  | .real _ => none

/-- Why a number has no nearest integer. -/
inductive Unbounded where
  | infinite
  | notANumber
  deriving DecidableEq, Repr

/-- The integer nearest to a multiple of a number. An integer is multiplied exactly; a real
number is multiplied within its format, where a large product becomes infinite. -/
def roundedMultiple (factor : Nat) : Quantity → Except Unbounded Int
  | .integer n => .ok (factor * n)
  | .real x =>
    match x.scale factor with
    | .infinite _ => .error .infinite
    | .notANumber _ => .error .notANumber
    | product => .ok (product.toInt?.getD 0)

end Quantity

end SyntaxSurvey.Number
