/-! Rounding of quotients to the nearest natural number, a tie going to the even neighbour. -/

namespace SyntaxSurvey.Number

/-- The natural number nearest to `num / den`; of two equally near ones the even one. -/
def nearestEven (num den : Nat) : Nat :=
  let floor := num / den
  let twice := 2 * (num % den)
  if twice < den then floor
  else if den < twice then floor + 1
  else if floor % 2 = 0 then floor else floor + 1

/-- The result is within half a unit of the quotient. -/
theorem nearestEven_within_half (num : Nat) {den : Nat} (h : 0 < den) :
    2 * num ≤ (2 * nearestEven num den + 1) * den ∧
      (2 * nearestEven num den) * den ≤ 2 * num + den := by
  have split := Nat.div_add_mod num den
  have small := Nat.mod_lt num h
  have product : den * (num / den) = num / den * den := Nat.mul_comm _ _
  unfold nearestEven
  simp only
  split
  · constructor <;> (simp only [Nat.add_mul, Nat.mul_assoc] ; omega)
  · split
    · constructor <;> (simp only [Nat.add_mul, Nat.mul_assoc, Nat.mul_add] ; omega)
    · split <;> constructor <;> (simp only [Nat.add_mul, Nat.mul_assoc, Nat.mul_add] ; omega)

end SyntaxSurvey.Number
