import Mathlib.Algebra.Order.Field.Power
import Mathlib.Algebra.Order.Field.Rat
import Mathlib.Data.Rat.Cast.Order
import Mathlib.Tactic.FieldSimp
import Mathlib.Tactic.Linarith
import Mathlib.Tactic.NormNum
import Mathlib.Tactic.Positivity
import Mathlib.Tactic.Ring
import SyntaxSurvey.Number.Binary64

/-! Rounding to the 64-bit format, in terms of the rational numbers that are rounded. The result
depends on the quotient alone, and a quotient that is close enough to a number of the format is
rounded to it. -/

namespace SyntaxSurvey.Number

/-- The nearest integer is at most one half away. -/
theorem abs_sub_nearestEven_le (num : Nat) {den : Nat} (h : 0 < den) :
    |(num : ℚ) / den - nearestEven num den| ≤ 1 / 2 := by
  obtain ⟨hAbove, hBelow⟩ := nearestEven_within_half num h
  have hDen : (0 : ℚ) < den := by exact_mod_cast h
  have hAbove' : 2 * (num : ℚ) ≤ (2 * nearestEven num den + 1) * den := by exact_mod_cast hAbove
  have hBelow' : 2 * (nearestEven num den : ℚ) * den ≤ 2 * num + den := by exact_mod_cast hBelow
  rw [abs_le]
  constructor
  · rw [neg_le_sub_iff_le_add, ← sub_le_iff_le_add, le_div_iff₀ hDen]
    linarith
  · rw [sub_le_iff_le_add, div_le_iff₀ hDen]
    linarith

/-- An integer that is less than one half away is the nearest one. -/
theorem nearestEven_eq_of_close {num den k : Nat} (h : 0 < den)
    (hClose : |(num : ℚ) / den - k| < 1 / 2) : nearestEven num den = k := by
  have hNear := abs_sub_nearestEven_le num h
  have hApart : |(nearestEven num den : ℚ) - k| < 1 := by
    calc |(nearestEven num den : ℚ) - k|
        ≤ |(nearestEven num den : ℚ) - num / den| + |(num : ℚ) / den - k| := abs_sub_le _ _ _
      _ < 1 / 2 + 1 / 2 := by
        rw [abs_sub_comm]
        exact add_lt_add_of_le_of_lt hNear hClose
      _ = 1 := by norm_num
  have hInt : |((nearestEven num den : ℤ) - k)| < 1 := by exact_mod_cast hApart
  have := Int.abs_lt_one_iff.mp hInt
  omega

/-- Rounding does not go past a natural number. -/
theorem nearestEven_le {num den k : Nat} (h : 0 < den) (hQuotient : (num : ℚ) / den ≤ k) :
    nearestEven num den ≤ k := by
  have hNear := (abs_le.mp (abs_sub_nearestEven_le num h)).1
  have hLess : (nearestEven num den : ℚ) < k + 1 := by linarith
  have : nearestEven num den < k + 1 := by exact_mod_cast hLess
  omega

/-- What is not below an integer is not rounded below it. -/
theorem le_nearestEven {num den k : Nat} (h : 0 < den) (hQuotient : (k : ℚ) ≤ num / den) :
    k ≤ nearestEven num den := by
  have hNear := (abs_le.mp (abs_sub_nearestEven_le num h)).2
  have hLess : (k : ℚ) < nearestEven num den + 1 := by linarith
  have : k < nearestEven num den + 1 := by exact_mod_cast hLess
  omega

theorem nearestEven_mul_left (num den : Nat) {c : Nat} (h : 0 < c) :
    nearestEven (c * num) (c * den) = nearestEven num den := by
  have hLess (a b : Nat) : c * a < c * b ↔ a < b := Nat.mul_lt_mul_left h
  have hTwice (a : Nat) : 2 * (c * a) = c * (2 * a) := Nat.mul_left_comm _ _ _
  simp only [nearestEven, Nat.mul_div_mul_left _ _ h, Nat.mul_mod_mul_left, hTwice, hLess]

theorem mul_eq_mul_of_div_eq {num den num' den' : Nat} (hDen : 0 < den) (hDen' : 0 < den')
    (h : (num : ℚ) / den = num' / den') : num * den' = num' * den := by
  have hPos : (den : ℚ) ≠ 0 := by exact_mod_cast hDen.ne'
  have hPos' : (den' : ℚ) ≠ 0 := by exact_mod_cast hDen'.ne'
  exact_mod_cast (div_eq_div_iff hPos hPos').mp h

/-- Rounding depends on the quotient and not on how it is written. -/
theorem nearestEven_congr {num den num' den' : Nat} (hDen : 0 < den) (hDen' : 0 < den')
    (h : (num : ℚ) / den = num' / den') : nearestEven num den = nearestEven num' den' := by
  rw [← nearestEven_mul_left num den hDen', ← nearestEven_mul_left num' den' hDen,
    Nat.mul_comm den' num, mul_eq_mul_of_div_eq hDen hDen' h, Nat.mul_comm num' den,
    Nat.mul_comm den' den]

namespace Binary64

/-- A power of two with an exponent that is not negative, as a natural number. -/
theorem cast_pow_toNat {base : Nat} {exponent : Int} (h : 0 ≤ exponent) :
    ((Nat.pow base exponent.toNat : Nat) : ℚ) = (base : ℚ) ^ exponent := by
  obtain ⟨n, rfl⟩ := Int.eq_ofNat_of_zero_le h
  simp

theorem cast_pow_toNat_neg {base : Nat} {exponent : Int} (h : exponent ≤ 0) :
    ((Nat.pow base (-exponent).toNat : Nat) : ℚ) = ((base : ℚ) ^ exponent)⁻¹ := by
  rw [cast_pow_toNat (by omega), zpow_neg]

theorem log2_spec {n : Nat} (h : 0 < n) :
    (2 : ℚ) ^ (n.log2 : ℤ) ≤ n ∧ (n : ℚ) < 2 ^ ((n.log2 : ℤ) + 1) := by
  constructor
  · exact_mod_cast Nat.log2_self_le h.ne'
  · exact_mod_cast Nat.lt_log2_self (n := n)

/-- A quotient is compared with a power of two without dividing. -/
theorem below_power_iff (num : Nat) {den : Nat} (hDen : 0 < den) (exponent : Int) :
    (if 0 ≤ exponent then decide (num < den * Nat.pow 2 exponent.toNat)
      else decide (num * Nat.pow 2 (-exponent).toNat < den)) = true
      ↔ (num : ℚ) / den < 2 ^ exponent := by
  have hPos : (0 : ℚ) < den := by exact_mod_cast hDen
  split
  next hSign =>
    rw [decide_eq_true_iff, div_lt_iff₀' hPos, ← Nat.cast_lt (α := ℚ), Nat.cast_mul,
      cast_pow_toNat hSign, Nat.cast_ofNat]
  next hSign =>
    rw [decide_eq_true_iff, div_lt_iff₀' hPos, ← Nat.cast_lt (α := ℚ), Nat.cast_mul,
      cast_pow_toNat_neg (by omega), Nat.cast_ofNat, mul_inv_lt_iff₀ (by positivity)]

/-- The binary order of a fraction is the exponent of the greatest power of two that is not above
it. The guess from the orders of both terms is off by one at most. -/
theorem binaryOrder_spec {num den : Nat} (hNum : 0 < num) (hDen : 0 < den) :
    (2 : ℚ) ^ binaryOrder num den ≤ (num : ℚ) / den
      ∧ (num : ℚ) / den < 2 ^ (binaryOrder num den + 1) := by
  have hPos : (0 : ℚ) < den := by exact_mod_cast hDen
  obtain ⟨hNumLow, hNumHigh⟩ := log2_spec hNum
  obtain ⟨hDenLow, hDenHigh⟩ := log2_spec hDen
  generalize hGuess : (num.log2 : ℤ) - (den.log2 : ℤ) = guess
  have hLow : (2 : ℚ) ^ (guess - 1) ≤ (num : ℚ) / den := by
    calc (2 : ℚ) ^ (guess - 1)
        = 2 ^ (num.log2 : ℤ) / 2 ^ ((den.log2 : ℤ) + 1) := by
          rw [← zpow_sub₀ two_ne_zero, ← hGuess]
          ring_nf
      _ ≤ (num : ℚ) / den := div_le_div₀ (by positivity) hNumLow hPos hDenHigh.le
  have hHigh : (num : ℚ) / den < 2 ^ (guess + 1) := by
    calc (num : ℚ) / den
        < 2 ^ ((num.log2 : ℤ) + 1) / 2 ^ (den.log2 : ℤ) :=
          div_lt_div₀ hNumHigh hDenLow (by positivity) (by positivity)
      _ = 2 ^ (guess + 1) := by
          rw [← zpow_sub₀ two_ne_zero, ← hGuess]
          ring_nf
  have hBelow := below_power_iff num hDen guess
  by_cases hLess : (num : ℚ) / den < 2 ^ guess
  · have hOrder : binaryOrder num den = guess - 1 := by
      rw [binaryOrder, hGuess]
      exact if_pos (hBelow.mpr hLess)
    rw [hOrder]
    exact ⟨hLow, by simpa using hLess⟩
  · have hOrder : binaryOrder num den = guess := by
      rw [binaryOrder, hGuess]
      exact if_neg (mt hBelow.mp hLess)
    rw [hOrder]
    exact ⟨not_lt.mp hLess, hHigh⟩

/-- No other power of two has this place. -/
theorem binaryOrder_eq {num den : Nat} {order : ℤ} (hNum : 0 < num) (hDen : 0 < den)
    (hLow : (2 : ℚ) ^ order ≤ (num : ℚ) / den) (hHigh : (num : ℚ) / den < 2 ^ (order + 1)) :
    binaryOrder num den = order := by
  obtain ⟨hLow', hHigh'⟩ := binaryOrder_spec hNum hDen
  have hLess := (zpow_lt_zpow_iff_right₀ (one_lt_two (α := ℚ))).mp (hLow.trans_lt hHigh')
  have hMore := (zpow_lt_zpow_iff_right₀ (one_lt_two (α := ℚ))).mp (hLow'.trans_lt hHigh)
  omega

theorem binaryOrder_congr {num den num' den' : Nat} (hNum : 0 < num) (hDen : 0 < den)
    (hDen' : 0 < den') (h : (num : ℚ) / den = num' / den') :
    binaryOrder num den = binaryOrder num' den' := by
  have hNum' : 0 < num' := by
    have := mul_eq_mul_of_div_eq hDen hDen' h
    exact Nat.pos_of_mul_pos_right (this ▸ Nat.mul_pos hNum hDen')
  obtain ⟨hLow, hHigh⟩ := binaryOrder_spec hNum' hDen'
  exact binaryOrder_eq hNum hDen (h ▸ hLow) (h ▸ hHigh)

/-- A mantissa and an exponent that a finite number of the format has. -/
structure Fits (mantissa : Nat) (exponent : Int) : Prop where
  bound : mantissa < 2 ^ 53
  least : leastExponent ≤ exponent
  greatest : exponent ≤ greatestExponent
  leading : exponent = leastExponent ∨ 2 ^ 52 ≤ mantissa

instance (mantissa : Nat) (exponent : Int) : Decidable (Fits mantissa exponent) :=
  decidable_of_iff
    (mantissa < 2 ^ 53 ∧ leastExponent ≤ exponent ∧ exponent ≤ greatestExponent
      ∧ (exponent = leastExponent ∨ 2 ^ 52 ≤ mantissa))
    ⟨fun h => ⟨h.1, h.2.1, h.2.2.1, h.2.2.2⟩,
      fun h => ⟨h.bound, h.least, h.greatest, h.leading⟩⟩

/-- The mantissa that a quotient is rounded to at an exponent. -/
def mantissaAt (num den : Nat) (exponent : Int) : Nat :=
  if 0 ≤ exponent then nearestEven num (den * Nat.pow 2 exponent.toNat)
  else nearestEven (num * Nat.pow 2 (-exponent).toNat) den

variable {num den : Nat}

/-- The mantissa at an exponent is the fraction over that power of two, rounded. -/
theorem exists_mantissaAt (num : Nat) (hDen : 0 < den) (exponent : Int) :
    ∃ n d : Nat, 0 < d ∧ (n : ℚ) / d = (num : ℚ) / den / 2 ^ exponent
      ∧ mantissaAt num den exponent = nearestEven n d := by
  by_cases hSign : 0 ≤ exponent
  · have hPos : 0 < den * Nat.pow 2 exponent.toNat := Nat.mul_pos hDen (Nat.two_pow_pos _)
    refine ⟨num, den * Nat.pow 2 exponent.toNat, hPos, ?_, if_pos hSign⟩
    rw [Nat.cast_mul, cast_pow_toNat hSign, Nat.cast_ofNat, div_div]
  · refine ⟨num * Nat.pow 2 (-exponent).toNat, den, hDen, ?_, if_neg hSign⟩
    rw [Nat.cast_mul, cast_pow_toNat_neg (by omega), Nat.cast_ofNat]
    field_simp

/-- An integer that is less than one half away from the scaled fraction is its mantissa. -/
theorem mantissaAt_eq {exponent : Int} {mantissa : Nat} (hDen : 0 < den)
    (hClose : |(num : ℚ) / den / 2 ^ exponent - mantissa| < 1 / 2) :
    mantissaAt num den exponent = mantissa := by
  obtain ⟨n, d, hPos, hQuotient, hAt⟩ := exists_mantissaAt num hDen exponent
  rw [hAt]
  exact nearestEven_eq_of_close hPos (hQuotient ▸ hClose)

theorem mantissaAt_congr {num' den' : Nat} (hDen : 0 < den) (hDen' : 0 < den')
    (h : (num : ℚ) / den = num' / den') (exponent : Int) :
    mantissaAt num den exponent = mantissaAt num' den' exponent := by
  obtain ⟨n, d, hPos, hQuotient, hAt⟩ := exists_mantissaAt num hDen exponent
  obtain ⟨n', d', hPos', hQuotient', hAt'⟩ := exists_mantissaAt num' hDen' exponent
  rw [hAt, hAt']
  exact nearestEven_congr hPos hPos' (by rw [hQuotient, hQuotient', h])

/-- The exponent of the number that a quotient is rounded to, but for a carry. -/
def exponentOf (num den : Nat) : Int :=
  max (binaryOrder num den - 52) leastExponent

theorem nearest_eq (negative : Bool) (hNum : num ≠ 0) :
    nearest negative num den =
      let mantissa := mantissaAt num den (exponentOf num den)
      let (mantissa, exponent) :=
        if mantissa = 2 ^ 53 then (2 ^ 52, exponentOf num den + 1)
        else (mantissa, exponentOf num den)
      if greatestExponent < exponent then .infinite negative
      else .finite negative mantissa exponent := by
  rw [nearest, if_neg hNum]
  rfl

/-- The nearest number is a number. -/
theorem nearest_ne_notANumber (negative sign : Bool) (num den : Nat) :
    nearest negative num den ≠ .notANumber sign := by
  intro h
  by_cases hNum : num = 0
  · rw [nearest, if_pos hNum] at h
    cases h
  · rw [nearest_eq negative hNum] at h
    dsimp only at h
    split_ifs at h

/-- Equal quotients are rounded alike. -/
theorem nearest_congr {num' den' : Nat} (negative : Bool) (hDen : 0 < den) (hDen' : 0 < den')
    (h : (num : ℚ) / den = num' / den') :
    nearest negative num den = nearest negative num' den' := by
  have hCross := mul_eq_mul_of_div_eq hDen hDen' h
  by_cases hNum : num = 0
  · have hNum' : num' = 0 := by
      rw [hNum, Nat.zero_mul, eq_comm, Nat.mul_eq_zero] at hCross
      exact hCross.resolve_right hDen.ne'
    rw [nearest, nearest, if_pos hNum, if_pos hNum']
  · have hNum' : num' ≠ 0 := by
      rintro rfl
      rw [Nat.zero_mul, Nat.mul_eq_zero] at hCross
      exact hCross.elim hNum hDen'.ne'
    have hExponent : exponentOf num den = exponentOf num' den' := by
      rw [exponentOf, exponentOf, binaryOrder_congr (Nat.pos_of_ne_zero hNum) hDen hDen' h]
    rw [nearest_eq negative hNum, nearest_eq negative hNum', hExponent,
      mantissaAt_congr hDen hDen' h]

variable {mantissa : Nat} {exponent : Int}

theorem zpow_le_div_zpow {x : ℚ} {n : ℤ} :
    (2 : ℚ) ^ n ≤ x / 2 ^ exponent ↔ (2 : ℚ) ^ (exponent + n) ≤ x := by
  rw [le_div_iff₀ (by positivity), add_comm, zpow_add₀ two_ne_zero]

theorem div_zpow_lt_zpow {x : ℚ} {n : ℤ} :
    x / 2 ^ exponent < (2 : ℚ) ^ n ↔ x < (2 : ℚ) ^ (exponent + n) := by
  rw [div_lt_iff₀ (by positivity), add_comm, zpow_add₀ two_ne_zero]

/-- At the exponent that is chosen, a mantissa has at most 53 bits, or it is the next power of two.
-/
theorem mantissaAt_exponentOf_le (hNum : 0 < num) (hDen : 0 < den) :
    mantissaAt num den (exponentOf num den) ≤ 2 ^ 53 := by
  obtain ⟨n, d, hPos, hQuotient, hAt⟩ := exists_mantissaAt num hDen (exponentOf num den)
  have hOrder : (2 : ℚ) ^ (binaryOrder num den + 1) ≤ 2 ^ (exponentOf num den + 53) := by
    apply zpow_le_zpow_right₀ one_le_two
    rw [exponentOf]
    omega
  rw [hAt]
  apply nearestEven_le hPos
  rw [hQuotient]
  exact_mod_cast (div_zpow_lt_zpow.mpr ((binaryOrder_spec hNum hDen).2.trans_le hOrder)).le

/-- Above the least exponent a mantissa has 53 bits. -/
theorem le_mantissaAt_exponentOf (hNum : 0 < num) (hDen : 0 < den)
    (hAbove : exponentOf num den ≠ leastExponent) :
    2 ^ 52 ≤ mantissaAt num den (exponentOf num den) := by
  obtain ⟨n, d, hPos, hQuotient, hAt⟩ := exists_mantissaAt num hDen (exponentOf num den)
  have hOrder : exponentOf num den + 52 = binaryOrder num den := by
    rw [exponentOf] at hAbove ⊢
    omega
  rw [hAt]
  apply le_nearestEven hPos
  rw [hQuotient]
  have hLow := (binaryOrder_spec hNum hDen).1
  rw [← hOrder] at hLow
  exact_mod_cast zpow_le_div_zpow.mpr hLow

/-- What a quotient is rounded to is a number of the format, unless it is too large for it. -/
theorem fits_of_nearest {negative sign : Bool} (hDen : 0 < den)
    (h : nearest negative num den = .finite sign mantissa exponent) : Fits mantissa exponent := by
  by_cases hNum : num = 0
  · rw [nearest, if_pos hNum, zero] at h
    cases h
    decide
  have hNumPos := Nat.pos_of_ne_zero hNum
  have hMost := mantissaAt_exponentOf_le hNumPos hDen
  have hLeast : leastExponent ≤ exponentOf num den := le_max_right _ _
  rw [nearest_eq negative hNum] at h
  by_cases hCarry : mantissaAt num den (exponentOf num den) = 2 ^ 53
  · simp only [hCarry, if_true] at h
    split at h
    next => cases h
    next hGreatest =>
      cases h
      exact ⟨by decide, by omega, not_lt.mp hGreatest, Or.inr le_rfl⟩
  · simp only [hCarry, if_false] at h
    split at h
    next => cases h
    next hGreatest =>
      cases h
      exact ⟨lt_of_le_of_ne hMost hCarry, hLeast, not_lt.mp hGreatest,
        or_iff_not_imp_left.mpr (le_mantissaAt_exponentOf hNumPos hDen)⟩

/-- The exponent that is chosen is the one at which the fraction has 53 bits before the point. -/
theorem exponentOf_eq (hNum : 0 < num) (hDen : 0 < den) (hLeast : leastExponent ≤ exponent)
    (hLow : (2 : ℚ) ^ 52 ≤ (num : ℚ) / den / 2 ^ exponent)
    (hHigh : (num : ℚ) / den / 2 ^ exponent < 2 ^ 53) : exponentOf num den = exponent := by
  have hOrder : binaryOrder num den = exponent + 52 := by
    apply binaryOrder_eq hNum hDen
    · exact zpow_le_div_zpow.mp (by exact_mod_cast hLow)
    · rw [add_assoc]
      exact div_zpow_lt_zpow.mp (by exact_mod_cast hHigh)
  rw [exponentOf, hOrder]
  omega

/-- A fraction that has fewer bits at the least exponent has that exponent. -/
theorem exponentOf_eq_least (hNum : 0 < num) (hDen : 0 < den)
    (hHigh : (num : ℚ) / den / 2 ^ leastExponent < 2 ^ 53) :
    exponentOf num den = leastExponent := by
  have hQuotient : (num : ℚ) / den < 2 ^ (leastExponent + 53) :=
    div_zpow_lt_zpow.mp (by exact_mod_cast hHigh)
  have hOrder : binaryOrder num den < leastExponent + 53 :=
    (zpow_lt_zpow_iff_right₀ (one_lt_two (α := ℚ))).mp
      ((binaryOrder_spec hNum hDen).1.trans_lt hQuotient)
  rw [exponentOf]
  omega

/-- A fraction close to a number of the format with the same exponent is rounded to it. -/
theorem nearest_of_exponent (negative : Bool) (hNum : num ≠ 0) (hDen : 0 < den)
    (hMantissa : mantissa < 2 ^ 53) (hGreatest : exponent ≤ greatestExponent)
    (hExponent : exponentOf num den = exponent)
    (hClose : |(num : ℚ) / den / 2 ^ exponent - mantissa| < 1 / 2) :
    nearest negative num den = .finite negative mantissa exponent := by
  rw [nearest_eq negative hNum, hExponent, mantissaAt_eq hDen hClose]
  dsimp only
  rw [if_neg hMantissa.ne]
  exact if_neg (not_lt.mpr hGreatest)

/-- A fraction just below a power of two is rounded up to it, with the next exponent. -/
theorem nearest_of_carry (negative : Bool) (hNum : num ≠ 0) (hDen : 0 < den)
    (hGreatest : exponent ≤ greatestExponent) (hExponent : exponentOf num den = exponent - 1)
    (hClose : |(num : ℚ) / den / 2 ^ (exponent - 1) - (2 ^ 53 : Nat)| < 1 / 2) :
    nearest negative num den = .finite negative (2 ^ 52) exponent := by
  rw [nearest_eq negative hNum, hExponent, mantissaAt_eq hDen hClose]
  simp [hGreatest]

/-- Just below a power of two the next lower exponent has numbers in between, and the mantissa is
carried. -/
theorem nearest_of_below_power (negative : Bool) (hNum : 0 < num) (hDen : 0 < den)
    (hLeast : leastExponent < exponent) (hGreatest : exponent ≤ greatestExponent)
    (hBelow : (num : ℚ) / den / 2 ^ exponent < 2 ^ 52)
    (hClose : (2 : ℚ) ^ 52 - 1 / 4 < (num : ℚ) / den / 2 ^ exponent) :
    nearest negative num den = .finite negative (2 ^ 52) exponent := by
  have hTwice : (num : ℚ) / den / 2 ^ (exponent - 1) = 2 * ((num : ℚ) / den / 2 ^ exponent) := by
    rw [zpow_sub_one₀ two_ne_zero]
    field_simp
  have hExponent : exponentOf num den = exponent - 1 := by
    apply exponentOf_eq hNum hDen (by omega)
    · rw [hTwice]
      linarith
    · rw [hTwice]
      linarith
  apply nearest_of_carry negative hNum.ne' hDen hGreatest hExponent
  rw [hTwice, abs_lt]
  norm_num at hBelow hClose ⊢
  constructor <;> linarith

/-- A quotient is rounded to a number of the format if they differ by less than the part of it that
the last of 54 binary places stands for. -/
theorem nearest_of_near (negative : Bool) (hDen : 0 < den) (hFits : Fits mantissa exponent)
    (hPositive : 0 < mantissa)
    (hNear : |(num : ℚ) / den - mantissa * 2 ^ exponent| < mantissa * 2 ^ exponent / 2 ^ 54) :
    nearest negative num den = .finite negative mantissa exponent := by
  have hUnit : (0 : ℚ) < 2 ^ exponent := by positivity
  have hClose : |(num : ℚ) / den / 2 ^ exponent - mantissa| < mantissa / 2 ^ 54 := by
    rw [div_sub' hUnit.ne', abs_div, abs_of_pos hUnit, div_lt_iff₀ hUnit,
      mul_comm ((2 : ℚ) ^ exponent), div_mul_eq_mul_div]
    exact hNear
  have hMantissa : (mantissa : ℚ) + 1 ≤ 2 ^ 53 := by exact_mod_cast hFits.bound
  have hOne : (1 : ℚ) ≤ mantissa := by exact_mod_cast hPositive
  have hHalf : (mantissa : ℚ) / 2 ^ 54 < 1 / 2 := by linarith
  obtain ⟨hLow, hHigh⟩ := abs_lt.mp hClose
  have hNum : 0 < num := by
    apply Nat.pos_of_ne_zero
    rintro rfl
    simp only [Nat.cast_zero, zero_div] at hLow
    linarith
  have hTop : (num : ℚ) / den / 2 ^ exponent < 2 ^ 53 := by linarith
  by_cases hFull : (2 : ℚ) ^ 52 ≤ (num : ℚ) / den / 2 ^ exponent
  · exact nearest_of_exponent negative hNum.ne' hDen hFits.bound hFits.greatest
      (exponentOf_eq hNum hDen hFits.least hFull hTop) (hClose.trans hHalf)
  rw [not_le] at hFull
  by_cases hLeast : exponent = leastExponent
  · subst hLeast
    exact nearest_of_exponent negative hNum.ne' hDen hFits.bound hFits.greatest
      (exponentOf_eq_least hNum hDen hTop) (hClose.trans hHalf)
  · have hLeading : 2 ^ 52 ≤ mantissa := hFits.leading.resolve_left hLeast
    have hMost : (mantissa : ℚ) < 2 ^ 52 + 1 := by linarith
    obtain rfl : mantissa = 2 ^ 52 := by
      have : mantissa < 2 ^ 52 + 1 := by exact_mod_cast hMost
      omega
    have hBound := hFits.least
    apply nearest_of_below_power negative hNum hDen (by omega) hFits.greatest hFull
    push_cast at hLow
    linarith

end Binary64

end SyntaxSurvey.Number
