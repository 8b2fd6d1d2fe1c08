import SyntaxSurvey.Number.Decimal
import SyntaxSurvey.Proofs.Number.Nearest

/-! Decimal numbers and what they are rounded to. Only their value matters, and not with how many
digits it was written. -/

namespace SyntaxSurvey.Number

theorem lt_pow_length (n : Nat) : n < 10 ^ (Nat.toDigits 10 n).length :=
  (Nat.length_toDigits_le_iff (by decide) Nat.length_toDigits_pos).mp le_rfl

theorem pow_length_le {n : Nat} (h : n ≠ 0) : 10 ^ ((Nat.toDigits 10 n).length - 1) ≤ n := by
  by_contra hLess
  rw [not_le] at hLess
  have hSome : 0 < (Nat.toDigits 10 n).length := Nat.length_toDigits_pos
  by_cases hOne : (Nat.toDigits 10 n).length = 1
  · rw [hOne, Nat.sub_self, Nat.pow_zero, Nat.lt_one_iff] at hLess
    exact h hLess
  · have := (Nat.length_toDigits_le_iff (by decide) (by omega)).mpr hLess
    omega

namespace Binary64

variable {digits digits' : Nat} {exponent exponent' : Int}

/-- One more than the exponent of the first digit of a decimal number. -/
def orderOf (digits : Nat) (exponent : Int) : Int :=
  exponent + (Nat.toDigits 10 digits).length

/-- The order of a decimal tells between which powers of ten it lies. -/
theorem orderOf_spec (h : digits ≠ 0) (exponent : Int) :
    (10 : ℚ) ^ (orderOf digits exponent - 1) ≤ digits * 10 ^ exponent
      ∧ (digits : ℚ) * 10 ^ exponent < 10 ^ orderOf digits exponent := by
  have hSome : 0 < (Nat.toDigits 10 digits).length := Nat.length_toDigits_pos
  have hLow : (10 : ℚ) ^ ((Nat.toDigits 10 digits).length - 1) ≤ digits := by
    exact_mod_cast pow_length_le h
  have hHigh : (digits : ℚ) < 10 ^ (Nat.toDigits 10 digits).length := by
    exact_mod_cast lt_pow_length digits
  have hUnit : (0 : ℚ) < 10 ^ exponent := by positivity
  constructor
  · have hSplit : orderOf digits exponent - 1
        = (((Nat.toDigits 10 digits).length - 1 : Nat) : ℤ) + exponent := by
      rw [orderOf]
      omega
    rw [hSplit, zpow_add₀ (by norm_num), zpow_natCast]
    exact mul_le_mul_of_nonneg_right hLow hUnit.le
  · rw [orderOf, add_comm, zpow_add₀ (by norm_num), zpow_natCast]
    exact mul_lt_mul_of_pos_right hHigh hUnit

/-- The order depends on the value alone. -/
theorem orderOf_congr (h : digits ≠ 0) (h' : digits' ≠ 0)
    (hValue : (digits : ℚ) * 10 ^ exponent = digits' * 10 ^ exponent') :
    orderOf digits exponent = orderOf digits' exponent' := by
  obtain ⟨hLow, hHigh⟩ := orderOf_spec h exponent
  obtain ⟨hLow', hHigh'⟩ := orderOf_spec h' exponent'
  have hTen : (1 : ℚ) < 10 := by norm_num
  have hLess := (zpow_lt_zpow_iff_right₀ hTen).mp (hLow.trans_lt (hValue ▸ hHigh'))
  have hMore := (zpow_lt_zpow_iff_right₀ hTen).mp (hLow'.trans_lt (hValue ▸ hHigh))
  omega

theorem ofDecimal_zero (negative : Bool) (exponent : Int) :
    ofDecimal negative 0 exponent = zero negative := if_pos rfl

/-- A decimal number is rounded as a quotient, unless it is certain to be too large or too small. -/
theorem exists_ofDecimal (negative : Bool) (h : digits ≠ 0) (exponent : Int) :
    ∃ num den : Nat, 0 < den ∧ (num : ℚ) / den = digits * 10 ^ exponent ∧
      ofDecimal negative digits exponent =
        if 320 < orderOf digits exponent then .infinite negative
        else if orderOf digits exponent < -340 then zero negative
        else nearest negative num den := by
  by_cases hSign : 0 ≤ exponent
  · refine ⟨digits * Nat.pow 10 exponent.toNat, 1, Nat.one_pos, ?_, ?_⟩
    · rw [Nat.cast_mul, cast_pow_toNat hSign, Nat.cast_ofNat, Nat.cast_one, div_one]
    · rw [ofDecimal, if_neg h, if_pos hSign]
      rfl
  · have hPos : 0 < Nat.pow 10 (-exponent).toNat := Nat.pow_pos (by decide)
    refine ⟨digits, Nat.pow 10 (-exponent).toNat, hPos, ?_, ?_⟩
    · rw [cast_pow_toNat_neg (by omega), Nat.cast_ofNat, div_inv_eq_mul]
    · rw [ofDecimal, if_neg h, if_neg hSign]
      rfl

def withSign (negative : Bool) : Binary64 → Binary64
  | .finite _ mantissa exponent => .finite negative mantissa exponent
  | .infinite _ => .infinite negative
  | .notANumber _ => .notANumber negative

/-- The nearest number of the format does not depend on the sign. -/
theorem nearest_withSign (negative : Bool) (num den : Nat) :
    nearest negative num den = (nearest false num den).withSign negative := by
  by_cases hNum : num = 0
  · rw [nearest, nearest, if_pos hNum, if_pos hNum]
    rfl
  · rw [nearest_eq negative hNum, nearest_eq false hNum]
    dsimp only
    rw [apply_ite (withSign negative)]
    rfl

theorem ofDecimal_withSign (negative : Bool) (digits : Nat) (exponent : Int) :
    ofDecimal negative digits exponent = (ofDecimal false digits exponent).withSign negative := by
  simp only [ofDecimal]
  split_ifs
  · rfl
  · rfl
  · rfl
  · exact nearest_withSign negative _ _
  · exact nearest_withSign negative _ _

/-- Equal decimal numbers are rounded alike, however they are written. -/
theorem ofDecimal_congr (negative : Bool)
    (hValue : (digits : ℚ) * 10 ^ exponent = digits' * 10 ^ exponent') :
    ofDecimal negative digits exponent = ofDecimal negative digits' exponent' := by
  have hZero : digits = 0 ↔ digits' = 0 := by
    have hUnit (e : Int) : (10 : ℚ) ^ e ≠ 0 := by positivity
    rw [← Nat.cast_eq_zero (R := ℚ), ← Nat.cast_eq_zero (R := ℚ) (n := digits')]
    constructor
    · intro h
      rw [h, zero_mul, eq_comm, mul_eq_zero] at hValue
      exact hValue.resolve_right (hUnit _)
    · intro h
      rw [h, zero_mul, mul_eq_zero] at hValue
      exact hValue.resolve_right (hUnit _)
  by_cases h : digits = 0
  · rw [h, hZero.mp h, ofDecimal_zero, ofDecimal_zero]
  · have h' := mt hZero.mpr h
    obtain ⟨num, den, hDen, hQuotient, hRounded⟩ := exists_ofDecimal negative h exponent
    obtain ⟨num', den', hDen', hQuotient', hRounded'⟩ := exists_ofDecimal negative h' exponent'
    rw [hRounded, hRounded', orderOf_congr h h' hValue,
      nearest_congr negative hDen hDen' (by rw [hQuotient, hQuotient', hValue])]

variable {mantissa : Nat} {power : Int}

/-- Powers of two are below powers of ten with a third of the exponent, roughly. -/
theorem two_zpow_le_ten_zpow (n : Nat) {power : Int} (h : power ≤ 33 * n) :
    (2 : ℚ) ^ power ≤ 10 ^ (10 * n : Int) := by
  calc (2 : ℚ) ^ power
      ≤ 2 ^ (33 * n : Int) := zpow_le_zpow_right₀ one_le_two h
    _ = (2 ^ 33) ^ n := by rw [← zpow_natCast, ← zpow_natCast, ← zpow_mul]; norm_num
    _ ≤ (10 ^ 10) ^ n := pow_le_pow_left₀ (by norm_num) (by norm_num) n
    _ = 10 ^ (10 * n : Int) := by rw [← zpow_natCast, ← zpow_natCast, ← zpow_mul]; norm_num

/-- The size of a positive number of the format. -/
theorem Fits.size (h : Fits mantissa power) (hPositive : 0 < mantissa) :
    (2 : ℚ) ^ (-1074 : Int) ≤ mantissa * 2 ^ power
      ∧ (mantissa : ℚ) * 2 ^ power < 2 ^ (1024 : Int) := by
  have hUnit : (0 : ℚ) < 2 ^ power := by positivity
  constructor
  · have hLeast : (2 : ℚ) ^ (-1074 : Int) ≤ 2 ^ power := zpow_le_zpow_right₀ one_le_two h.least
    have hOne : (1 : ℚ) ≤ mantissa := by exact_mod_cast hPositive
    exact hLeast.trans (le_mul_of_one_le_left hUnit.le hOne)
  · have hGreatest : (2 : ℚ) ^ power ≤ 2 ^ (971 : Int) := zpow_le_zpow_right₀ one_le_two h.greatest
    have hBound : (mantissa : ℚ) < 2 ^ (53 : Int) := by exact_mod_cast h.bound
    calc (mantissa : ℚ) * 2 ^ power
        < 2 ^ (53 : Int) * 2 ^ power := mul_lt_mul_of_pos_right hBound hUnit
      _ ≤ 2 ^ (53 : Int) * 2 ^ (971 : Int) := mul_le_mul_of_nonneg_left hGreatest (by positivity)
      _ = 2 ^ (1024 : Int) := by rw [← zpow_add₀ two_ne_zero]; norm_num

/-- A decimal number that is close enough to a positive number of the format is rounded to it. -/
theorem ofDecimal_of_near (negative : Bool) (hFits : Fits mantissa power) (hPositive : 0 < mantissa)
    (hNear : |(digits : ℚ) * 10 ^ exponent - mantissa * 2 ^ power| < mantissa * 2 ^ power / 2 ^ 54) :
    ofDecimal negative digits exponent = .finite negative mantissa power := by
  obtain ⟨hLeast, hGreatest⟩ := hFits.size hPositive
  obtain ⟨hLow, hHigh⟩ := abs_lt.mp hNear
  have hPos : (0 : ℚ) < mantissa * 2 ^ power := by positivity
  have h : digits ≠ 0 := by
    rintro rfl
    norm_num at hLow
    linarith
  obtain ⟨hFirst, hPast⟩ := orderOf_spec h exponent
  have hAbove : -340 ≤ orderOf digits exponent := by
    by_contra hNot
    have hSmall : (10 : ℚ) ^ orderOf digits exponent ≤ 10 ^ (-340 : Int) :=
      zpow_le_zpow_right₀ (by norm_num) (by omega)
    have hTiny : (10 : ℚ) ^ (-340 : Int) ≤ 2 ^ (-1074 : Int) / 2 := by
      have hRatio : (2 : ℚ) ^ (1074 : Int) * 2 ≤ 10 ^ (340 : Int) := by
        rw [← zpow_add_one₀ two_ne_zero]
        exact two_zpow_le_ten_zpow 34 (by decide)
      rw [zpow_neg, zpow_neg, div_eq_mul_inv, ← mul_inv]
      exact inv_anti₀ (by positivity) hRatio
    linarith
  have hBelow : orderOf digits exponent ≤ 320 := by
    by_contra hNot
    have hLarge : (10 : ℚ) ^ (320 : Int) ≤ 10 ^ (orderOf digits exponent - 1) :=
      zpow_le_zpow_right₀ (by norm_num) (by omega)
    have hHuge : (2 : ℚ) ^ (1024 : Int) * 2 ≤ 10 ^ (320 : Int) := by
      rw [← zpow_add_one₀ two_ne_zero]
      exact two_zpow_le_ten_zpow 32 (by decide)
    generalize (2 : ℚ) ^ (1024 : Int) = top at hGreatest hHuge
    generalize (10 : ℚ) ^ (320 : Int) = order at hLarge hHuge
    linarith
  obtain ⟨num, den, hDen, hQuotient, hRounded⟩ := exists_ofDecimal negative h exponent
  rw [hRounded, if_neg (not_lt.mpr hBelow), if_neg (not_lt.mpr hAbove)]
  exact nearest_of_near negative hDen hFits hPositive (by rwa [hQuotient])

end Binary64

end SyntaxSurvey.Number
