import SyntaxSurvey.Number.Shortest
import SyntaxSurvey.Proofs.Number.Decimal

/-! The shortest decimal of a number is rounded to that number. Seventeen digits are enough: the grid
that they make is so fine that a neighbour is closer than half of the distance to the next number of
the format. -/

namespace SyntaxSurvey.Number.Binary64

variable {mantissa : Nat} {exponent : Int}

/-- A power with an integer exponent is a quotient of two powers. -/
theorem cast_pow_div_cast_pow (base : Nat) (exponent : Int) :
    ((Nat.pow base exponent.toNat : Nat) : ℚ) / (Nat.pow base (-exponent).toNat : Nat)
      = (base : ℚ) ^ exponent := by
  rcases le_total 0 exponent with h | h
  · have hNone : (-exponent).toNat = 0 := by omega
    rw [hNone, cast_pow_toNat h]
    simp
  · have hNone : exponent.toNat = 0 := by omega
    rw [hNone, cast_pow_toNat_neg h]
    simp

theorem cast_ten_pow (n : Nat) : ((Nat.pow 10 n : Nat) : ℚ) = 10 ^ n := by
  rw [Nat.pow_eq, Nat.cast_pow, Nat.cast_ofNat]

/-- A floor is at most the quotient, which is less than the next number. -/
theorem cast_div_le_lt (num : Nat) {den : Nat} (h : 0 < den) :
    ((num / den : Nat) : ℚ) ≤ (num : ℚ) / den
      ∧ (num : ℚ) / den < (num / den : Nat) + 1 := by
  have hPos : (0 : ℚ) < den := by exact_mod_cast h
  rw [le_div_iff₀ hPos, div_lt_iff₀ hPos]
  constructor
  · exact_mod_cast Nat.div_mul_le_self num den
  · exact_mod_cast Nat.lt_mul_of_div_lt (Nat.lt_succ_self _) h

/-- What the digits are counted of. -/
theorem exists_enlarged (mantissa : Nat) (exponent : Int) :
    ∃ enlarged : Nat, decimalOrder mantissa exponent = (Nat.toDigits 10 enlarged).length - 401
      ∧ (enlarged : ℚ) ≤ mantissa * 2 ^ exponent * 10 ^ 400
      ∧ (mantissa : ℚ) * 2 ^ exponent * 10 ^ 400 < enlarged + 1 := by
  obtain ⟨places, hPlaces, hOrder⟩ : ∃ places, places = 400 ∧ decimalOrder mantissa exponent =
      (Nat.toDigits 10
        (if 0 ≤ exponent then mantissa * Nat.pow 2 exponent.toNat * Nat.pow 10 places
        else mantissa * Nat.pow 10 places / Nat.pow 2 (-exponent).toNat)).length - 401 :=
    ⟨400, rfl, rfl⟩
  rw [hOrder, ← hPlaces]
  by_cases hSign : 0 ≤ exponent
  · refine ⟨mantissa * Nat.pow 2 exponent.toNat * Nat.pow 10 places, by rw [if_pos hSign], ?_⟩
    rw [Nat.cast_mul, Nat.cast_mul, cast_pow_toNat hSign, cast_ten_pow, Nat.cast_ofNat]
    exact ⟨le_rfl, lt_add_one _⟩
  · refine ⟨mantissa * Nat.pow 10 places / Nat.pow 2 (-exponent).toNat, by rw [if_neg hSign], ?_⟩
    have hQuotient : ((mantissa * Nat.pow 10 places : Nat) : ℚ) / (Nat.pow 2 (-exponent).toNat : Nat)
        = mantissa * 2 ^ exponent * 10 ^ places := by
      rw [Nat.cast_mul, cast_pow_toNat_neg (by omega), cast_ten_pow, Nat.cast_ofNat,
        div_inv_eq_mul, mul_right_comm]
    rw [← hQuotient]
    exact cast_div_le_lt (mantissa * Nat.pow 10 places) (Nat.two_pow_pos (-exponent).toNat)

/-- The decimal order of a number is the exponent of the greatest power of ten that is not above it.
-/
theorem decimalOrder_spec (hFits : Fits mantissa exponent) (hPositive : 0 < mantissa) :
    (10 : ℚ) ^ decimalOrder mantissa exponent ≤ mantissa * 2 ^ exponent
      ∧ (mantissa : ℚ) * 2 ^ exponent < 10 ^ (decimalOrder mantissa exponent + 1) := by
  obtain ⟨enlarged, hOrder, hLow, hHigh⟩ := exists_enlarged mantissa exponent
  have hUnit : (0 : ℚ) < 10 ^ 400 := by positivity
  have hSome : enlarged ≠ 0 := by
    rintro rfl
    have hTiny : (1 : ℚ) ≤ 2 ^ (-1074 : Int) * 10 ^ 400 := by
      have hRatio : (2 : ℚ) ^ (1074 : Int) ≤ 10 ^ ((400 : Nat) : Int) :=
        two_zpow_le_ten_zpow 40 (by decide)
      rw [zpow_natCast] at hRatio
      rwa [zpow_neg, ← div_eq_inv_mul, one_le_div (by positivity)]
    have := mul_le_mul_of_nonneg_right (hFits.size hPositive).1 hUnit.le
    rw [Nat.cast_zero, zero_add] at hHigh
    exact absurd hHigh (not_lt.mpr (hTiny.trans this))
  have hFirst : (10 : ℚ) ^ ((Nat.toDigits 10 enlarged).length - 1) ≤ enlarged := by
    exact_mod_cast pow_length_le hSome
  have hPast : (enlarged : ℚ) + 1 ≤ 10 ^ (Nat.toDigits 10 enlarged).length := by
    exact_mod_cast lt_pow_length enlarged
  have hCount : 0 < (Nat.toDigits 10 enlarged).length := Nat.length_toDigits_pos
  generalize (Nat.toDigits 10 enlarged).length = count at hOrder hFirst hPast hCount
  have hPower (power : Nat) : (10 : ℚ) ^ ((power : Int) - 400) * 10 ^ 400 = 10 ^ power := by
    rw [← zpow_natCast (10 : ℚ) 400, ← zpow_add₀ (by norm_num)]
    norm_num
  rw [hOrder, ← mul_le_mul_iff_left₀ hUnit, ← mul_lt_mul_iff_left₀ hUnit]
  constructor
  · have hSplit : (count : Int) - 401 = ((count - 1 : Nat) : Int) - 400 := by omega
    rw [hSplit, hPower]
    exact hFirst.trans hLow
  · have hSplit : (count : Int) - 401 + 1 = (count : Int) - 400 := by omega
    rw [hSplit, hPower]
    exact hHigh.trans_le hPast

theorem inUnits_pos (mantissa : Nat) (exponent place : Int) :
    0 < (inUnits mantissa exponent place).2 :=
  Nat.mul_pos (Nat.pow_pos (by decide)) (Nat.pow_pos (by decide))

/-- A number in units of a power of ten is the number over that power. -/
theorem inUnits_div (mantissa : Nat) (exponent place : Int) :
    ((inUnits mantissa exponent place).1 : ℚ) / (inUnits mantissa exponent place).2
      = mantissa * 2 ^ exponent / 10 ^ place := by
  have hTwo := cast_pow_div_cast_pow 2 exponent
  have hTen := cast_pow_div_cast_pow 10 place
  rw [Nat.cast_ofNat] at hTwo hTen
  rw [inUnits, Nat.cast_mul, Nat.cast_mul, Nat.cast_mul, ← hTwo, ← hTen]
  have hPos (base n : Nat) (h : 0 < base) : ((Nat.pow base n : Nat) : ℚ) ≠ 0 := by
    have : 0 < Nat.pow base n := Nat.pow_pos h
    exact_mod_cast this.ne'
  have hTwoPos := hPos 2 (-exponent).toNat (by decide)
  have hTenPos := hPos 10 place.toNat (by decide)
  field_simp

/-- Digits that were found for a number are read as that number. -/
theorem toBinary64_of_withDigits? {count : Nat} {d : Decimal}
    (h : withDigits? mantissa exponent count = some d) :
    d.toBinary64 false = .finite false mantissa exponent := by
  unfold withDigits? at h
  dsimp only at h
  split at h
  next hBelow hAbove =>
    rw [beq_iff_eq] at hBelow hAbove
    cases h
    split
    · exact hBelow
    · exact hAbove
  next hBelow _ =>
    cases h
    exact beq_iff_eq.mp hBelow
  next _ hAbove =>
    cases h
    exact beq_iff_eq.mp hAbove
  next => cases h

/-- A decimal of the grid is found if one next to the number is rounded to it. -/
theorem withDigits?_ne_none {count n : Nat} {place : Int}
    (hPlace : decimalOrder mantissa exponent - (count : Int) + 1 = place)
    (hNeighbour : n = (inUnits mantissa exponent place).1 / (inUnits mantissa exponent place).2
      ∨ n = (inUnits mantissa exponent place).1 / (inUnits mantissa exponent place).2 + 1)
    (hSame : ofDecimal false n place = .finite false mantissa exponent) :
    withDigits? mantissa exponent count ≠ none := by
  intro hNone
  unfold withDigits? at hNone
  dsimp only at hNone
  rw [hPlace] at hNone
  split at hNone
  next => cases hNone
  next => cases hNone
  next => cases hNone
  next hBelow hAbove =>
    rw [beq_eq_false_iff_ne] at hBelow hAbove
    rcases hNeighbour with rfl | rfl
    · exact hBelow hSame
    · exact hAbove hSame

/-- One of two neighbours is within half of their distance. -/
theorem exists_neighbour (num : Nat) {den : Nat} (h : 0 < den) :
    ∃ n, (n = num / den ∨ n = num / den + 1) ∧ |(num : ℚ) / den - n| ≤ 1 / 2 := by
  refine ⟨nearestEven num den, ?_, abs_sub_nearestEven_le num h⟩
  simp only [nearestEven]
  split
  · exact Or.inl rfl
  · split
    · exact Or.inr rfl
    · split
      · exact Or.inl rfl
      · exact Or.inr rfl

/-- Seventeen digits are enough. -/
theorem withDigits?_seventeen (hFits : Fits mantissa exponent) (hPositive : 0 < mantissa) :
    withDigits? mantissa exponent 17 ≠ none := by
  obtain ⟨hLow, -⟩ := decimalOrder_spec hFits hPositive
  generalize hPlace : decimalOrder mantissa exponent - 17 + 1 = place
  obtain ⟨n, hNeighbour, hHalf⟩ :=
    exists_neighbour (inUnits mantissa exponent place).1 (inUnits_pos mantissa exponent place)
  apply withDigits?_ne_none hPlace hNeighbour
  apply ofDecimal_of_near false hFits hPositive
  rw [inUnits_div] at hHalf
  have hUnit : (0 : ℚ) < 10 ^ place := by positivity
  have hGrid : |(n : ℚ) * 10 ^ place - mantissa * 2 ^ exponent| ≤ 10 ^ place / 2 := by
    rw [div_sub' hUnit.ne', abs_div, abs_of_pos hUnit, div_le_iff₀ hUnit] at hHalf
    rw [abs_sub_comm, mul_comm (n : ℚ)]
    linarith
  have hSize : (10 : ℚ) ^ place * 10 ^ 16 ≤ mantissa * 2 ^ exponent := by
    have hSplit : decimalOrder mantissa exponent = place + 16 := by omega
    rw [hSplit, zpow_add₀ (by norm_num)] at hLow
    exact_mod_cast hLow
  norm_num at hSize ⊢
  linarith

/-- The shortest decimal of a number is rounded to it. -/
theorem toBinary64_shortest (negative : Bool) (hFits : Fits mantissa exponent)
    (hPositive : 0 < mantissa) :
    (shortest mantissa exponent).toBinary64 negative = .finite negative mantissa exponent := by
  have hPlain : (shortest mantissa exponent).toBinary64 false = .finite false mantissa exponent := by
    rw [shortest]
    cases hFound : (List.range 17).findSome? fun n => withDigits? mantissa exponent (n + 1) with
    | none =>
        rw [List.findSome?_eq_none_iff] at hFound
        exact absurd (hFound 16 (by decide)) (withDigits?_seventeen hFits hPositive)
    | some d =>
        obtain ⟨n, -, hDigits⟩ := List.exists_of_findSome?_eq_some hFound
        exact toBinary64_of_withDigits? hDigits
  rw [Decimal.toBinary64, ofDecimal_withSign]
  rw [Decimal.toBinary64] at hPlain
  rw [hPlain]
  rfl

/-- The digits of the shortest decimal are not all zero. -/
theorem digits_shortest_ne_zero (exponent : Int) (h : mantissa ≠ 0) :
    (shortest mantissa exponent).digits ≠ 0 := by
  rw [shortest]
  cases hFound : (List.range 17).findSome? fun n => withDigits? mantissa exponent (n + 1) with
  | none => exact h
  | some d =>
      obtain ⟨n, -, hDigits⟩ := List.exists_of_findSome?_eq_some hFound
      intro hZero
      have hSame := toBinary64_of_withDigits? hDigits
      rw [Option.getD_some] at hZero
      rw [Decimal.toBinary64, hZero, ofDecimal_zero, zero] at hSame
      cases hSame
      exact h rfl

end SyntaxSurvey.Number.Binary64
