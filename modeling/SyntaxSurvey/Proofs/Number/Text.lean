import SyntaxSurvey.Number.Quantity
import SyntaxSurvey.Proofs.Json.Numeral
import SyntaxSurvey.Proofs.Number.Shortest

/-! The texts of numbers are numerals. An integer is denoted by its text, and so is every finite number
of the 64-bit format. -/

namespace SyntaxSurvey

open Json (AreDigits Numeral Power)
open Number (Quantity Binary64 Decimal)

theorem areDigits_toDigits (n : Nat) : AreDigits (Nat.toDigits 10 n) :=
  ⟨Nat.toDigits_ne_nil, fun _ hMem => Nat.isDigit_of_mem_toDigits (by decide) (by decide) hMem⟩

/-- No zero stands before other digits. -/
theorem head?_toDigits_ne {n : Nat} (h : n ≠ 0) : (Nat.toDigits 10 n).head? ≠ some '0' := by
  induction n using Nat.strongRecOn with
  | _ n ih =>
      by_cases hSmall : n < 10
      · rw [Nat.toDigits_of_lt_base hSmall, List.head?_singleton]
        simpa using h
      · rw [Nat.toDigits_of_base_le (by decide) (by omega), List.head?_append_of_ne_nil]
        · exact ih (n / 10) (by omega) (by omega)
        · exact Nat.toDigits_ne_nil

namespace Json

def integerNumeral (n : Int) : Numeral :=
  ⟨n < 0, Nat.toDigits 10 n.natAbs, none, none⟩

theorem wellFormed_integerNumeral (n : Int) : (integerNumeral n).WellFormed where
  whole := areDigits_toDigits n.natAbs
  leading h := by
    by_cases hZero : n.natAbs = 0
    · simp [integerNumeral, hZero]
    · exact absurd h (head?_toDigits_ne hZero)
  fraction _ h := by cases h
  power _ h := by cases h

/-- The numeral of an integer is its text. -/
theorem text_integerNumeral (n : Int) : (integerNumeral n).text = (toString n).toList := by
  rw [Int.toString_eq_repr, Int.repr_eq_if]
  by_cases hSign : 0 ≤ n
  · have hSize : n.natAbs = n.toNat := by omega
    simp [integerNumeral, Numeral.text, Numeral.body, hSign, hSize]
  · have hSize : n.natAbs = (-n).toNat := by omega
    simp [integerNumeral, Numeral.text, Numeral.body, hSign, not_le.mp hSign, hSize]

theorem value_integerNumeral (n : Int) : (integerNumeral n).value = .integer n := by
  simp only [integerNumeral, Numeral.value, and_self, if_true, Nat.ofDigitChars_ten_toDigits,
    decide_eq_true_eq]
  congr 1
  omega

end Json

namespace Number.Binary64

/-- Zeros that were dropped stood at the end. -/
theorem dropZeros_spec (digits : List Char) :
    digits = (dropZeros digits).1 ++ List.replicate (dropZeros digits).2 '0' := by
  have hReverse := List.takeWhile_append_dropWhile (p := (· == '0')) (l := digits.reverse)
  have hZeros : digits.reverse.takeWhile (· == '0')
      = List.replicate (digits.reverse.takeWhile (· == '0')).length '0' := by
    rw [List.eq_replicate_iff]
    exact ⟨rfl, fun c hMem => by simpa using List.all_eq_true.mp List.all_takeWhile c hMem⟩
  have hSplit : digits = (dropZeros digits).1
      ++ List.replicate (digits.reverse.takeWhile (· == '0')).length '0' := by
    have := congrArg List.reverse hReverse
    rw [List.reverse_append, List.reverse_reverse, hZeros, List.reverse_replicate] at this
    exact this.symm
  have hCount : (dropZeros digits).2 = (digits.reverse.takeWhile (· == '0')).length := by
    have := congrArg List.length hSplit
    rw [List.length_append, List.length_replicate] at this
    simp only [dropZeros] at this ⊢
    omega
  rw [hCount]
  exact hSplit

theorem ofDigitChars_dropZeros (digits : List Char) :
    Nat.ofDigitChars 10 digits 0
      = 10 ^ (dropZeros digits).2 * Nat.ofDigitChars 10 (dropZeros digits).1 0 := by
  conv_lhs => rw [dropZeros_spec digits]
  rw [Nat.ofDigitChars_append, Nat.ofDigitChars_replicate_zero]

/-- The digits of a number that is not zero, without the zeros at their end. -/
structure Significant (digits : List Char) : Prop where
  areDigits : AreDigits digits
  leading : digits.head? ≠ some '0'

/-- Without the zeros at the end, the digits of a number are significant. -/
theorem significant_dropZeros {n : Nat} (h : n ≠ 0) :
    Significant (dropZeros (Nat.toDigits 10 n)).1 := by
  have hSplit := dropZeros_spec (Nat.toDigits 10 n)
  have hSome : (dropZeros (Nat.toDigits 10 n)).1 ≠ [] := by
    intro hNil
    have hValue := ofDigitChars_dropZeros (Nat.toDigits 10 n)
    rw [hNil, Nat.ofDigitChars_nil, Nat.mul_zero, Nat.ofDigitChars_ten_toDigits] at hValue
    exact h hValue
  refine ⟨⟨hSome, fun c hMem => ?_⟩, ?_⟩
  · apply (areDigits_toDigits n).all
    rw [hSplit]
    exact List.mem_append_left _ hMem
  · have hHead := head?_toDigits_ne h
    rwa [hSplit, List.head?_append_of_ne_nil _ hSome] at hHead

/-- The exponent of a number that is written with one. -/
def exponentPower (n : Int) : Power where
  mark := 'e'
  sign := [if n < 0 then '-' else '+']
  digits :=
    let digits := Nat.toDigits 10 n.natAbs
    if digits.length < 2 then '0' :: digits else digits

theorem text_exponentPower (n : Int) :
    (exponentPower n).text = 'e' :: (exponentText n).toList := by
  simp only [exponentPower, Power.text, exponentText, Nat.toString_eq_repr, String.toList_append]
  have hLength : n.natAbs.repr.length = (Nat.toDigits 10 n.natAbs).length := by
    rw [← String.length_toList, Nat.toList_repr]
  rw [hLength]
  split <;> split <;> simp

theorem wellFormed_exponentPower (n : Int) : (exponentPower n).WellFormed where
  mark := Or.inl rfl
  sign := by
    by_cases hSign : n < 0 <;> simp [exponentPower, hSign]
  digits := by
    have hDigits := areDigits_toDigits n.natAbs
    simp only [exponentPower]
    split
    · exact ⟨List.cons_ne_nil _ _, List.forall_mem_cons.mpr ⟨rfl, hDigits.all⟩⟩
    · exact hDigits

/-- The power that is written for an exponent has that exponent. -/
theorem value_exponentPower (n : Int) : (exponentPower n).value = n := by
  have hDigits : Nat.ofDigitChars 10 (exponentPower n).digits 0 = n.natAbs := by
    simp only [exponentPower]
    split
    · rw [Nat.ofDigitChars_cons]
      exact Nat.ofDigitChars_ten_toDigits
    · exact Nat.ofDigitChars_ten_toDigits
  have hSign : (exponentPower n).sign = ['-'] ↔ n < 0 := by
    by_cases h : n < 0 <;> simp [exponentPower, h]
  rw [Power.value, hDigits]
  simp only [hSign]
  split <;> omega

/-- The numeral of digits after a point and zeros. -/
def smallNumeral (negative : Bool) (digits : List Char) (zeros : Nat) : Numeral :=
  ⟨negative, ['0'], some (List.replicate zeros '0' ++ digits), none⟩

/-- The numeral of digits with a point after a number of them, which are filled up with zeros. -/
def plainNumeral (negative : Bool) (digits : List Char) (point : Nat) : Numeral :=
  ⟨negative, digits.take point ++ List.replicate (point - (digits.take point).length) '0',
    some (if (digits.drop point).isEmpty then ['0'] else digits.drop point), none⟩

/-- The numeral of digits with a point after the first one and an exponent. -/
def scientificNumeral (negative : Bool) (digits : List Char) (exponent : Int) : Numeral :=
  ⟨negative, digits.take 1, if (digits.drop 1).isEmpty then none else some (digits.drop 1),
    some (exponentPower exponent)⟩

/-- The numeral of digits with the point a number of places after their start. -/
def layoutNumeral (negative : Bool) (digits : List Char) (point : Int) : Numeral :=
  if -4 < point ∧ point ≤ 16 then
    if point ≤ 0 then smallNumeral negative digits (-point).toNat
    else plainNumeral negative digits point.toNat
  else scientificNumeral negative digits (point - 1)

/-- Digits are laid out as the text of a numeral. -/
theorem text_layoutNumeral (negative : Bool) (digits : List Char) (point : Int) :
    (layoutNumeral negative digits point).text
      = (if negative then ['-'] else []) ++ (layout digits point).toList := by
  rw [layoutNumeral, layout]
  split
  · split
    · dsimp only [smallNumeral, Numeral.text, Numeral.body]
      simp
    · dsimp only [plainNumeral]
      split <;> simp [Numeral.text, Numeral.body]
  · dsimp only [scientificNumeral]
    split <;> simp [Numeral.text, Numeral.body, text_exponentPower]

variable {digits : List Char}

theorem isDigit_replicate (n : Nat) : ∀ c ∈ List.replicate n '0', c.isDigit := by
  intro c hMem
  rw [List.eq_of_mem_replicate hMem]
  rfl

theorem Significant.take (h : Significant digits) {n : Nat} (hPos : 0 < n) :
    Significant (digits.take n) := by
  obtain ⟨c, rest, hCons, -⟩ := h.areDigits.exists_cons
  obtain ⟨n, rfl⟩ := Nat.exists_eq_add_one.mpr hPos
  have hLeading := h.leading
  refine ⟨⟨?_, fun c hMem => h.areDigits.all c (List.mem_of_mem_take hMem)⟩, ?_⟩
  · simp [hCons]
  · simpa [hCons] using hLeading

theorem Significant.drop (h : Significant digits) {n : Nat}
    (hSome : (digits.drop n).isEmpty = false) : AreDigits (digits.drop n) where
  some := by simpa using hSome
  all c hMem := h.areDigits.all c (List.mem_of_mem_drop hMem)

theorem wellFormed_smallNumeral (negative : Bool) (h : Significant digits) (zeros : Nat) :
    (smallNumeral negative digits zeros).WellFormed where
  whole := ⟨List.cons_ne_nil _ _, by simp [smallNumeral]⟩
  leading _ := rfl
  fraction := by
    rintro _ ⟨⟩
    refine ⟨by simp [h.areDigits.some], fun c hMem => ?_⟩
    exact (List.mem_append.mp hMem).elim (isDigit_replicate _ c) (h.areDigits.all c)
  power _ hPower := by cases hPower

theorem wellFormed_plainNumeral (negative : Bool) (h : Significant digits) {point : Nat}
    (hPoint : 0 < point) : (plainNumeral negative digits point).WellFormed where
  whole := by
    refine ⟨by simp [plainNumeral, (h.take hPoint).areDigits.some], fun c hMem => ?_⟩
    exact (List.mem_append.mp hMem).elim ((h.take hPoint).areDigits.all c) (isDigit_replicate _ c)
  leading hZero := by
    rw [plainNumeral, List.head?_append_of_ne_nil _ (h.take hPoint).areDigits.some] at hZero
    exact absurd hZero (h.take hPoint).leading
  fraction := by
    rintro _ ⟨⟩
    cases hRest : (digits.drop point).isEmpty with
    | true => exact ⟨List.cons_ne_nil _ _, by simp⟩
    | false => exact h.drop hRest
  power _ hPower := by cases hPower

theorem wellFormed_scientificNumeral (negative : Bool) (h : Significant digits) (exponent : Int) :
    (scientificNumeral negative digits exponent).WellFormed where
  whole := (h.take Nat.one_pos).areDigits
  leading hZero := absurd hZero (h.take Nat.one_pos).leading
  fraction _ hFraction := by
    dsimp only [scientificNumeral] at hFraction
    split at hFraction
    next => cases hFraction
    next hRest =>
      cases hFraction
      exact h.drop (by simpa using hRest)
  power _ hPower := by
    cases hPower
    exact wellFormed_exponentPower exponent

/-- Significant digits are laid out as a well-formed numeral, wherever the point is. -/
theorem wellFormed_layoutNumeral (negative : Bool) (h : Significant digits) (point : Int) :
    (layoutNumeral negative digits point).WellFormed := by
  rw [layoutNumeral]
  split
  · split
    · exact wellFormed_smallNumeral negative h _
    · exact wellFormed_plainNumeral negative h (by omega)
  · exact wellFormed_scientificNumeral negative h _

/-- A numeral with zeros behind the point denotes its digits below the point. -/
theorem value_smallNumeral (negative : Bool) (digits : List Char) (zeros : Nat) :
    (smallNumeral negative digits zeros).value = .real (ofDecimal negative
      (Nat.ofDigitChars 10 digits 0) (-(zeros : Int) - digits.length)) := by
  have hDigits : Nat.ofDigitChars 10 (['0'] ++ (List.replicate zeros '0' ++ digits)) 0
      = Nat.ofDigitChars 10 digits 0 := by
    rw [Nat.ofDigitChars_append, Nat.ofDigitChars_append, Nat.ofDigitChars_replicate_zero]
    rfl
  simp only [smallNumeral, Numeral.value, reduceCtorEq, false_and, if_false, Option.getD_some,
    hDigits, Option.elim_none]
  congr 2
  simp
  omega

theorem value_scientificNumeral (negative : Bool) (h : Significant digits) (exponent : Int) :
    (scientificNumeral negative digits exponent).value = .real (ofDecimal negative
      (Nat.ofDigitChars 10 digits 0) (exponent + 1 - digits.length)) := by
  have hTail : (if (digits.drop 1).isEmpty then none else some (digits.drop 1)).getD []
      = digits.drop 1 := by
    cases hRest : digits.drop 1 <;> rfl
  have hCount : 0 < digits.length := List.length_pos_of_ne_nil h.areDigits.some
  simp only [scientificNumeral, Numeral.value, reduceCtorEq, and_false, if_false, hTail,
    List.take_append_drop, Option.elim_some, value_exponentPower, List.length_drop]
  congr 2
  omega

/-- A numeral without a power denotes its digits. If the point is behind them, they are filled up
with zeros, and one more zero follows the point. -/
theorem value_plainNumeral (negative : Bool) (digits : List Char) (point : Nat) :
    (plainNumeral negative digits point).value = .real (ofDecimal negative
      (Nat.ofDigitChars 10 digits 0) (point - digits.length)) := by
  simp only [plainNumeral, Numeral.value, reduceCtorEq, false_and, if_false, Option.getD_some,
    Option.elim_none]
  cases hRest : (digits.drop point).isEmpty with
  | false =>
      have hMore : point < digits.length := by simpa using hRest
      have hNone : point - (digits.take point).length = 0 := by
        rw [List.length_take]
        omega
      rw [hNone, List.replicate_zero, List.append_nil, if_neg (by decide), List.take_append_drop,
        List.length_drop]
      congr 2
      omega
  | true =>
      have hLess : digits.length ≤ point := by simpa using hRest
      have hValue : Nat.ofDigitChars 10
          (digits ++ List.replicate (point - digits.length) '0' ++ ['0']) 0
          = Nat.ofDigitChars 10 digits 0 * 10 ^ (point - digits.length + 1) := by
        have hLast : ['0'] = List.replicate 1 '0' := rfl
        rw [hLast, Nat.ofDigitChars_append, Nat.ofDigitChars_append,
          Nat.ofDigitChars_replicate_zero, Nat.ofDigitChars_replicate_zero]
        ring
      rw [List.take_of_length_le hLess, if_pos rfl, hValue]
      congr 1
      apply ofDecimal_congr
      have hSplit : (point : Int) - digits.length = (point - digits.length : Nat) := by omega
      rw [hSplit, Nat.cast_mul, Nat.cast_pow, Nat.cast_ofNat, mul_assoc, ← zpow_natCast,
        ← zpow_add₀ (by norm_num)]
      congr 2
      simp

/-- However digits are laid out, the numeral denotes them with the point at its place. -/
theorem value_layoutNumeral (negative : Bool) (h : Significant digits) (point : Int) :
    (layoutNumeral negative digits point).value = .real (ofDecimal negative
      (Nat.ofDigitChars 10 digits 0) (point - digits.length)) := by
  rw [layoutNumeral]
  split
  · split
    · rw [value_smallNumeral]
      congr 2
      omega
    · rw [value_plainNumeral]
      congr 2
      omega
  · rw [value_scientificNumeral negative h]
    congr 2
    omega

/-- The numeral that a finite number is written as. -/
def textNumeral (negative : Bool) (mantissa : Nat) (exponent : Int) : Numeral :=
  if mantissa = 0 then ⟨negative, ['0'], some ['0'], none⟩
  else
    let decimal := shortest mantissa exponent
    let (digits, dropped) := dropZeros (Nat.toDigits 10 decimal.digits)
    layoutNumeral negative digits (decimal.exponent + dropped + digits.length)

/-- The number that the text of a finite number denotes. -/
def reread (negative : Bool) (mantissa : Nat) (exponent : Int) : Binary64 :=
  if mantissa = 0 then zero negative else (shortest mantissa exponent).toBinary64 negative

theorem text_textNumeral (negative : Bool) (mantissa : Nat) (exponent : Int) :
    (textNumeral negative mantissa exponent).text
      = (Binary64.finite negative mantissa exponent).text.toList := by
  rw [textNumeral, text]
  by_cases hZero : mantissa = 0
  · cases negative <;> simp [hZero, Numeral.text, Numeral.body]
  · simp only [hZero, if_false, text_layoutNumeral]
    cases negative <;> simp

variable {mantissa : Nat} {exponent : Int}

/-- The text of a finite number is a well-formed numeral. -/
theorem wellFormed_textNumeral (negative : Bool) (mantissa : Nat) (exponent : Int) :
    (textNumeral negative mantissa exponent).WellFormed := by
  rw [textNumeral]
  split
  · exact ⟨⟨by simp, by simp⟩, fun _ => rfl, fun _ h => by cases h; exact ⟨by simp, by simp⟩,
      by simp⟩
  next hSome =>
    exact wellFormed_layoutNumeral negative
      (significant_dropZeros (digits_shortest_ne_zero exponent hSome)) _

/-- The text of a finite number denotes what the number is read as again. -/
theorem value_textNumeral (negative : Bool) (mantissa : Nat) (exponent : Int) :
    (textNumeral negative mantissa exponent).value
      = .real (reread negative mantissa exponent) := by
  rw [textNumeral, reread]
  split
  · rfl
  next hSome =>
    dsimp only
    rw [value_layoutNumeral negative
      (significant_dropZeros (digits_shortest_ne_zero exponent hSome))]
    congr 1
    apply ofDecimal_congr
    have hDigits := ofDigitChars_dropZeros (Nat.toDigits 10 (shortest mantissa exponent).digits)
    rw [Nat.ofDigitChars_ten_toDigits] at hDigits
    conv_rhs => rw [hDigits]
    rw [add_sub_cancel_right, zpow_add₀ (by norm_num), zpow_natCast, Nat.cast_mul, Nat.cast_pow,
      Nat.cast_ofNat]
    ring

/-- A number of the format is denoted by its text. -/
theorem reread_eq (negative : Bool) (h : Fits mantissa exponent) :
    reread negative mantissa exponent = .finite negative mantissa exponent := by
  rw [reread]
  split
  next hZero =>
    subst hZero
    have hLeast : exponent = leastExponent := h.leading.resolve_right (by decide)
    rw [hLeast, zero]
  next hSome => exact toBinary64_shortest negative h (Nat.pos_of_ne_zero hSome)

end Number.Binary64

namespace Number.Quantity

/-- A number that is neither an infinity nor what is not a number. -/
def HasDigits : Quantity → Prop
  | .integer _ => True
  | .real (.finite _ _ _) => True
  | .real _ => False

/-- A number as the functions on numbers make it. What is not a number has no sign here, since its
text has none. -/
def InFormat : Quantity → Prop
  | .integer _ => True
  | .real (.finite _ mantissa exponent) => Binary64.Fits mantissa exponent
  | .real (.infinite _) => True
  | .real (.notANumber negative) => negative = false

/-- The number that the text of a number denotes. -/
def reread : Quantity → Quantity
  | .integer n => .integer n
  | .real (.finite negative mantissa exponent) =>
    .real (Binary64.reread negative mantissa exponent)
  | .real (.infinite negative) => .real (.infinite negative)
  | .real (.notANumber _) => .real (.notANumber false)

/-- A number of the format is read again as itself. -/
theorem reread_eq {q : Quantity} (h : q.InFormat) : q.reread = q := by
  match q, h with
  | .integer _, _ => rfl
  | .real (.finite negative mantissa exponent), h =>
      rw [reread, Binary64.reread_eq negative h]
  | .real (.infinite _), _ => rfl
  | .real (.notANumber _), h => rw [reread, h]

/-- What a decimal number is rounded to is in the format. -/
theorem inFormat_ofDecimal (negative : Bool) (digits : Nat) (exponent : Int) :
    (real (Binary64.ofDecimal negative digits exponent)).InFormat := by
  by_cases hZero : digits = 0
  · rw [hZero, Binary64.ofDecimal_zero, Binary64.zero]
    exact ⟨by decide, le_rfl, by decide, Or.inl rfl⟩
  · obtain ⟨num, den, hDen, -, hRounded⟩ := Binary64.exists_ofDecimal negative hZero exponent
    rw [hRounded]
    split_ifs
    · trivial
    · exact ⟨by decide, le_rfl, by decide, Or.inl rfl⟩
    · cases hNearest : Binary64.nearest negative num den with
      | finite sign mantissa exponent => exact Binary64.fits_of_nearest hDen hNearest
      | infinite _ => trivial
      | notANumber sign => exact absurd hNearest (Binary64.nearest_ne_notANumber negative sign num den)

end Number.Quantity

end SyntaxSurvey
