import SyntaxSurvey.Number.Quantity
import SyntaxSurvey.Proofs.Number.Nearest

/-! The range of the 64-bit format. What lies half a unit above the largest number of the format, or
further, is rounded to an infinity, and a multiple of a number has a nearest integer if and only if
it stays below that. -/

namespace SyntaxSurvey.Number

/-- Rounding passes an odd number from the middle on, since the tie goes to the even one above it.
-/
theorem lt_nearestEven_iff_mul_le {num den k : Nat} (hDen : 0 < den) (hOdd : k % 2 = 1) :
    k < nearestEven num den ↔ (2 * k + 1) * den ≤ 2 * num := by
  obtain ⟨floor, rest, hFloor, hRest, hNum, hSmall⟩ : ∃ floor rest, num / den = floor
      ∧ num % den = rest ∧ num = den * floor + rest ∧ rest < den :=
    ⟨_, _, rfl, rfl, (Nat.div_add_mod num den).symm, Nat.mod_lt num hDen⟩
  have hTwice : (2 * k + 1) * den = 2 * (den * k) + den := by ring
  have hRound : nearestEven num den = if 2 * rest < den then floor
      else if den < 2 * rest then floor + 1 else if floor % 2 = 0 then floor else floor + 1 := by
    rw [nearestEven, hFloor, hRest]
  rw [hRound, hTwice, hNum]
  rcases lt_trichotomy floor k with hBelow | rfl | hAbove
  · have hProduct : den * floor + den ≤ den * k := Nat.mul_le_mul_left den hBelow
    split_ifs <;> omega
  · split_ifs <;> omega
  · have hProduct : den * k + den ≤ den * floor := Nat.mul_le_mul_left den hAbove
    split_ifs <;> omega

/-- A quotient is rounded above an odd integer exactly from one half above it on, since a tie goes
to the even neighbour. -/
theorem lt_nearestEven_iff {num den k : Nat} (hDen : 0 < den) (hOdd : k % 2 = 1) :
    k < nearestEven num den ↔ (k : ℚ) + 1 / 2 ≤ (num : ℚ) / den := by
  have hPos : (0 : ℚ) < den := by exact_mod_cast hDen
  rw [lt_nearestEven_iff_mul_le hDen hOdd, le_div_iff₀ hPos, ← Nat.cast_le (α := ℚ)]
  push_cast
  constructor <;> intro h <;> linarith

namespace Binary64

variable {num den : Nat}

/-- Half a unit above the largest number of the format. -/
def limit : ℚ :=
  (2 ^ 54 - 1) * 2 ^ 970

/-- The limit lies below a power of two by a unit that is half of the last one. -/
theorem limit_eq : limit = 2 ^ 1024 - 2 ^ 970 := by
  rw [limit, sub_mul, one_mul, ← pow_add]

theorem limit_pos : 0 < limit :=
  mul_pos (by norm_num) (by positivity)

theorem zpow_le_limit : (2 : ℚ) ^ (1023 : ℤ) ≤ limit := by
  have hPower : (2 : ℚ) ^ (1023 : ℤ) = 2 ^ 53 * 2 ^ 970 := by
    rw [← pow_add]
    exact zpow_ofNat 2 1023
  rw [hPower, limit]
  exact mul_le_mul_of_nonneg_right (by norm_num) (by positivity)

theorem limit_le_zpow : limit ≤ (2 : ℚ) ^ (1024 : ℤ) := by
  rw [limit_eq]
  exact (sub_le_self _ (by positivity)).trans_eq (zpow_ofNat 2 1024).symm

/-- A mantissa is carried from half a unit below the power of two on. -/
theorem mantissaAt_eq_carry_iff (hNum : 0 < num) (hDen : 0 < den) :
    mantissaAt num den (exponentOf num den) = 2 ^ 53 ↔
      (2 ^ 53 - 1 / 2 : ℚ) ≤ (num : ℚ) / den / 2 ^ exponentOf num den := by
  have hMost := mantissaAt_exponentOf_le hNum hDen
  obtain ⟨n, d, hPos, hQuotient, hAt⟩ := exists_mantissaAt num hDen (exponentOf num den)
  have hMiddle : (((2 ^ 53 - 1 : Nat) : ℚ) + 1 / 2) = 2 ^ 53 - 1 / 2 := by norm_num
  have hPast : 2 ^ 53 - 1 < nearestEven n d ↔ (2 ^ 53 - 1 / 2 : ℚ) ≤ (n : ℚ) / d := by
    rw [← hMiddle]
    exact lt_nearestEven_iff hPos (by decide)
  rw [hAt] at hMost ⊢
  rw [← hQuotient, ← hPast]
  omega

/-- A quotient is rounded to an infinity where its exponent, after a carry, is beyond the greatest.
-/
theorem nearest_infinite_iff_exponent (negative : Bool) (hNum : 0 < num) :
    (∃ sign, nearest negative num den = .infinite sign) ↔
      971 < exponentOf num den
        ∨ exponentOf num den = 971 ∧ mantissaAt num den (exponentOf num den) = 2 ^ 53 := by
  have hGreatest : greatestExponent = 971 := rfl
  rw [nearest_eq negative hNum.ne', hGreatest]
  by_cases hCarry : mantissaAt num den (exponentOf num den) = 2 ^ 53
  · simp only [hCarry, if_true, and_true]
    split_ifs with hAbove
    · exact iff_of_true ⟨negative, rfl⟩ (by omega)
    · exact iff_of_false (by simp) (by omega)
  · simp only [hCarry, if_false, and_false, or_false]
    split_ifs with hAbove
    · exact iff_of_true ⟨negative, rfl⟩ hAbove
    · exact iff_of_false (by simp) hAbove

/-- What a quotient is rounded to is infinite from the middle between the largest number and the
next power of two on. -/
theorem nearest_infinite_iff (negative : Bool) (num : Nat) (hDen : 0 < den) :
    (∃ sign, nearest negative num den = .infinite sign) ↔ limit ≤ (num : ℚ) / den := by
  rcases Nat.eq_zero_or_pos num with rfl | hNum
  · rw [nearest, if_pos rfl, Nat.cast_zero, zero_div]
    exact iff_of_false (by simp [zero]) (not_le.mpr limit_pos)
  obtain ⟨hLow, hHigh⟩ := binaryOrder_spec hNum hDen
  have hLeast : leastExponent = -1074 := rfl
  have hExponent : exponentOf num den = max (binaryOrder num den - 52) leastExponent := rfl
  rw [nearest_infinite_iff_exponent negative hNum]
  rcases lt_trichotomy (exponentOf num den) 971 with hBelow | hAt | hAbove
  · refine iff_of_false (by omega) (not_le.mpr ?_)
    calc (num : ℚ) / den
        < 2 ^ (binaryOrder num den + 1) := hHigh
      _ ≤ 2 ^ (1023 : ℤ) := zpow_le_zpow_right₀ one_le_two (by omega)
      _ ≤ limit := zpow_le_limit
  · have hUnit : (2 ^ 53 - 1 / 2 : ℚ) * 2 ^ (971 : ℤ) = limit := by
      have hDouble : (2 : ℚ) ^ (971 : ℤ) = 2 * 2 ^ 970 := (zpow_ofNat 2 971).trans (pow_succ' 2 970)
      rw [limit, hDouble, ← mul_assoc]
      norm_num
    rw [mantissaAt_eq_carry_iff hNum hDen, hAt, le_div_iff₀ (by positivity), hUnit]
    simp
  · refine iff_of_true (Or.inl hAbove) ?_
    calc limit
        ≤ (2 : ℚ) ^ (1024 : ℤ) := limit_le_zpow
      _ ≤ 2 ^ binaryOrder num den := zpow_le_zpow_right₀ one_le_two (by omega)
      _ ≤ (num : ℚ) / den := hLow

/-- The value of a number, if it is finite. -/
def value? : Binary64 → Option ℚ
  | .finite negative mantissa exponent =>
    some ((if negative then -1 else 1) * (mantissa * 2 ^ exponent))
  | .infinite _ | .notANumber _ => none

/-- What is compared with zero is the value; a negative infinity is below it. -/
theorem isAtMostZero_iff {x : Binary64} :
    x.isAtMostZero = true ↔ x = .infinite true ∨ ∃ value, x.value? = some value ∧ value ≤ 0 := by
  cases x with
  | finite negative mantissa exponent =>
      have hUnit : (0 : ℚ) < 2 ^ exponent := by positivity
      have hSize : (mantissa : ℚ) * 2 ^ exponent ≤ 0 ↔ mantissa = 0 := by
        rw [← not_lt, mul_pos_iff_of_pos_right hUnit, Nat.cast_pos, Nat.pos_iff_ne_zero, not_not]
      have hNonneg : (0 : ℚ) ≤ mantissa * 2 ^ exponent := by positivity
      cases negative with
      | true => simpa [isAtMostZero, value?] using hNonneg
      | false => simpa [isAtMostZero, value?] using hSize.symm
  | infinite negative => simp [isAtMostZero, value?]
  | notANumber negative => simp [isAtMostZero, value?]

/-- What is not too small is positive, or it is infinite, or it is no number. -/
theorem cases_of_isAtMostZero {x : Binary64} (h : x.isAtMostZero = false) :
    (∃ value, x.value? = some value ∧ 0 < value) ∨ x = .infinite false
      ∨ ∃ sign, x = .notANumber sign := by
  cases x with
  | finite negative mantissa exponent =>
      refine Or.inl ⟨_, rfl, not_le.mp fun hNonpos => ?_⟩
      have hSmall : (finite negative mantissa exponent).isAtMostZero = true :=
        isAtMostZero_iff.mpr (Or.inr ⟨_, rfl, hNonpos⟩)
      simp [h] at hSmall
  | infinite negative =>
      obtain rfl : negative = false := h
      exact Or.inr (Or.inl rfl)
  | notANumber sign => exact Or.inr (Or.inr ⟨sign, rfl⟩)

/-- A multiple of a finite number is rounded from its exact value. -/
theorem exists_scale_eq (factor : Nat) (negative : Bool) (mantissa : Nat) (exponent : Int) :
    ∃ num den : Nat, 0 < den ∧ (num : ℚ) / den = factor * (mantissa * 2 ^ exponent)
      ∧ scale factor (.finite negative mantissa exponent) = nearest negative num den := by
  by_cases hSign : 0 ≤ exponent
  · refine ⟨factor * mantissa * Nat.pow 2 exponent.toNat, 1, Nat.one_pos, ?_, if_pos hSign⟩
    rw [Nat.cast_mul, Nat.cast_mul, cast_pow_toNat hSign, Nat.cast_one, div_one, mul_assoc,
      Nat.cast_ofNat]
  · refine ⟨factor * mantissa, Nat.pow 2 (-exponent).toNat, Nat.two_pow_pos _, ?_, if_neg hSign⟩
    rw [Nat.cast_mul, cast_pow_toNat_neg (by omega), div_inv_eq_mul, mul_assoc, Nat.cast_ofNat]

end Binary64

namespace Quantity

open Binary64 (limit)

/-- A multiple of a finite number has a nearest integer if and only if its value is below the limit.
-/
theorem roundedMultiple_finite (factor : Nat) (negative : Bool) (mantissa : Nat) (exponent : Int) :
    let multiple := roundedMultiple factor (.real (.finite negative mantissa exponent))
    (limit ≤ factor * (mantissa * 2 ^ exponent : ℚ) ∧ multiple = .error .infinite)
      ∨ ((factor : ℚ) * (mantissa * 2 ^ exponent) < limit ∧ ∃ n, multiple = .ok n) := by
  obtain ⟨num, den, hDen, hQuotient, hScale⟩ :=
    Binary64.exists_scale_eq factor negative mantissa exponent
  have hInfinite := Binary64.nearest_infinite_iff negative num hDen
  rw [← hQuotient]
  dsimp only [roundedMultiple]
  rw [hScale]
  cases hNearest : Binary64.nearest negative num den with
  | finite sign size place =>
      refine Or.inr ⟨not_le.mp fun hLarge => ?_, _, rfl⟩
      obtain ⟨other, hOther⟩ := hInfinite.mpr hLarge
      simp [hNearest] at hOther
  | infinite sign => exact Or.inl ⟨hInfinite.mp ⟨sign, hNearest⟩, rfl⟩
  | notANumber sign => exact absurd hNearest (Binary64.nearest_ne_notANumber negative sign num den)

end Quantity

end SyntaxSurvey.Number
