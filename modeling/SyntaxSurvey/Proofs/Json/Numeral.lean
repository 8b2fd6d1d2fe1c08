import Mathlib.Data.List.Basic
import SyntaxSurvey.Json.Grammar

/-! Numerals are read as the numbers that they denote. -/

namespace SyntaxSurvey

open Number (Quantity Binary64 Decimal)

namespace Number.Decimal

/-- Whether a text begins with a digit. -/
def GoesOn (cs : List Char) : Prop :=
  ∃ c rest, cs = c :: rest ∧ c.isDigit

theorem not_goesOn_nil : ¬GoesOn [] := by
  rintro ⟨c, rest, hNil, -⟩
  cases hNil

theorem not_goesOn_cons {c : Char} {rest : List Char} (h : ¬c.isDigit) : ¬GoesOn (c :: rest) := by
  rintro ⟨other, others, hEq, hDigit⟩
  cases hEq
  exact h hDigit

/-- Digits are taken up to the first character that is none. -/
theorem takeDigits_append {digits : List Char} (hDigits : ∀ c ∈ digits, c.isDigit)
    {rest : List Char} (hRest : ¬GoesOn rest) (sofar count : Nat) :
    takeDigits sofar count (digits ++ rest)
      = (Nat.ofDigitChars 10 digits sofar, count + digits.length, rest) := by
  induction digits generalizing sofar count with
  | nil =>
      cases rest with
      | nil => rfl
      | cons c rest =>
          have hNot : ¬c.isDigit := fun hDigit => hRest ⟨c, rest, rfl, hDigit⟩
          simp [takeDigits, digit?, hNot, Nat.ofDigitChars]
  | cons c digits ih =>
      obtain ⟨hFirst, hOthers⟩ := List.forall_mem_cons.mp hDigits
      rw [List.cons_append, takeDigits, digit?, if_pos hFirst]
      dsimp only
      rw [ih hOthers, Nat.ofDigitChars_cons, Nat.mul_comm, List.length_cons]
      congr 2
      omega

end Number.Decimal

namespace Json

theorem AreDigits.exists_cons {cs : List Char} (h : AreDigits cs) :
    ∃ c rest, cs = c :: rest ∧ c.isDigit := by
  obtain ⟨c, rest, rfl⟩ := List.exists_cons_of_ne_nil h.some
  exact ⟨c, rest, rfl, h.all c (by simp)⟩

/-- A power is read as its value. -/
theorem Power.readExponent?_eq {power : Power} (h : power.WellFormed) :
    Decimal.readExponent? (power.sign ++ power.digits) = some power.value := by
  obtain ⟨c, rest, hCons, hDigit⟩ := h.digits.exists_cons
  have hTake : Decimal.takeDigits 0 0 power.digits
      = (Nat.ofDigitChars 10 power.digits 0, rest.length + 1, []) := by
    have := Decimal.takeDigits_append h.digits.all Decimal.not_goesOn_nil 0 0
    simpa [hCons] using this
  rcases h.sign with hSign | hSign | hSign
  · have hPlain : Decimal.readExponent? power.digits
        = some (Nat.ofDigitChars 10 power.digits 0 : Int) := by
      have hMinus : c ≠ '-' := by rintro rfl; simp at hDigit
      have hPlus : c ≠ '+' := by rintro rfl; simp at hDigit
      simp [Decimal.readExponent?, hCons ▸ hTake, hCons, hMinus, hPlus]
    simp [value, hSign, hPlain]
  · simp [Decimal.readExponent?, value, hSign, hTake]
  · simp [Decimal.readExponent?, value, hSign, hTake]

namespace Numeral

variable {numeral : Numeral}

theorem exists_body (h : numeral.WellFormed) : ∃ c rest, numeral.body = c :: rest ∧ c.isDigit := by
  obtain ⟨c, rest, hCons, hDigit⟩ := h.whole.exists_cons
  exact ⟨c, _, by rw [body, hCons, List.cons_append], hDigit⟩

/-- What follows the digits before the point is no digit. -/
theorem not_goesOn_power (h : numeral.WellFormed) :
    ¬Decimal.GoesOn (numeral.power.elim [] Power.text) := by
  cases hPower : numeral.power with
  | none => exact Decimal.not_goesOn_nil
  | some power =>
      apply Decimal.not_goesOn_cons
      rcases (h.power power hPower).mark with hMark | hMark <;> simp [hMark]

/-- A numeral with a fraction or a power is read as its digits and the place of its point. -/
theorem read?_body (h : numeral.WellFormed)
    (hReal : ¬(numeral.fraction = none ∧ numeral.power = none)) :
    Decimal.read? numeral.body = some
      ⟨Nat.ofDigitChars 10 (numeral.whole ++ numeral.fraction.getD []) 0,
        numeral.power.elim 0 Power.value - (numeral.fraction.getD []).length⟩ := by
  cases hFraction : numeral.fraction with
  | none =>
      cases hPower : numeral.power with
      | none => exact absurd ⟨hFraction, hPower⟩ hReal
      | some power =>
          have hWell := h.power power hPower
          have hWhole := Decimal.takeDigits_append h.whole.all (not_goesOn_power h) 0 0
          have hExponent := Power.readExponent?_eq hWell
          have hMark : power.mark ≠ '.' := by
            rcases hWell.mark with hMark | hMark <;> simp [hMark]
          simp only [hPower, Option.elim_some, Power.text, List.cons_append] at hWhole
          simp [Decimal.read?, body, hFraction, hPower, Power.text, hWhole, hExponent, hMark,
            hWell.mark, h.whole.some]
  | some digits =>
      have hFirst := h.fraction digits hFraction
      have hPoint : ¬Decimal.GoesOn ('.' :: (digits ++ numeral.power.elim [] Power.text)) :=
        Decimal.not_goesOn_cons (by decide)
      have hWhole := Decimal.takeDigits_append h.whole.all hPoint 0 0
      have hPlaces := Decimal.takeDigits_append hFirst.all (not_goesOn_power h)
        (Nat.ofDigitChars 10 numeral.whole 0) 0
      cases hPower : numeral.power with
      | none =>
          simp only [hPower, Option.elim_none, List.append_nil] at hWhole hPlaces
          simp [Decimal.read?, body, hFraction, hPower, hWhole, hPlaces, h.whole.some,
            Nat.ofDigitChars_append]
      | some power =>
          have hWell := h.power power hPower
          have hExponent := Power.readExponent?_eq hWell
          simp only [hPower, Option.elim_some, Power.text, List.cons_append] at hWhole hPlaces
          simp [Decimal.read?, body, hFraction, hPower, Power.text, hWhole, hPlaces, hExponent,
            hWell.mark, h.whole.some, Nat.ofDigitChars_append]

/-- A numeral consists of digits exactly if it has neither a fraction nor a power. -/
theorem all_isDigit_body (h : numeral.WellFormed) :
    numeral.body.all Char.isDigit = true ↔ numeral.fraction = none ∧ numeral.power = none := by
  have hWhole : numeral.whole.all Char.isDigit = true := List.all_eq_true.mpr h.whole.all
  cases hFraction : numeral.fraction with
  | some digits => simp [body, hFraction]
  | none =>
      cases hPower : numeral.power with
      | none => simpa [body, hFraction, hPower] using hWhole
      | some power =>
          have hMark : power.mark.isDigit = false := by
            rcases (h.power power hPower).mark with hMark | hMark <;> simp [hMark]
          simp [body, hFraction, hPower, Power.text, hMark]

/-- A numeral is read as its value. -/
theorem ofNumberText?_text (h : numeral.WellFormed) :
    ofNumberText? numeral.text = some numeral.value := by
  obtain ⟨c, rest, hCons, hDigit⟩ := exists_body h
  have hSome : numeral.body.isEmpty = false := by simp [hCons]
  unfold ofNumberText?
  split
  next negative digits hSplit =>
    obtain ⟨rfl, rfl⟩ : negative = numeral.negative ∧ digits = numeral.body := by
      have hMinus : c ≠ '-' := by
        rintro rfl
        simp at hDigit
      cases hNegative : numeral.negative with
      | true => simpa [text, hNegative, eq_comm] using hSplit
      | false => simpa [text, hNegative, hCons, hMinus, eq_comm] using hSplit
    by_cases hInteger : numeral.fraction = none ∧ numeral.power = none
    · have hBody : numeral.body = numeral.whole := by
        simp [body, hInteger.1, hInteger.2]
      have hTake := Decimal.takeDigits_append h.whole.all Decimal.not_goesOn_nil 0 0
      rw [List.append_nil] at hTake
      simpa [hBody, hTake, value, hInteger] using ⟨h.whole.some, h.whole.all⟩
    · have hAll : numeral.body.all Char.isDigit = false := by
        simpa using mt (all_isDigit_body h).mp hInteger
      simp [hAll, hSome, read?_body h hInteger, value, hInteger, Decimal.toBinary64]

/-- The characters of a numeral are those that a number may have. -/
theorem isNumberChar_text (h : numeral.WellFormed) : ∀ c ∈ numeral.text, isNumberChar c := by
  have hDigits {cs : List Char} (hCs : AreDigits cs) : ∀ c ∈ cs, isNumberChar c :=
    fun c hMem => by simp [isNumberChar, hCs.all c hMem]
  intro c hMem
  simp only [text, body, List.mem_append] at hMem
  rcases hMem with hSign | hWhole | hFraction | hPower
  · obtain ⟨-, rfl⟩ : numeral.negative = true ∧ c = '-' := by simpa using hSign
    rfl
  · exact hDigits h.whole c hWhole
  · cases hPlaces : numeral.fraction with
    | none => simp [hPlaces] at hFraction
    | some digits =>
        simp only [hPlaces, Option.elim_some, List.mem_cons] at hFraction
        rcases hFraction with rfl | hDigit
        · rfl
        · exact hDigits (h.fraction digits hPlaces) c hDigit
  · cases hExponent : numeral.power with
    | none => simp [hExponent] at hPower
    | some power =>
        have hWell := h.power power hExponent
        simp only [hExponent, Option.elim_some, Power.text, List.cons_append, List.mem_cons,
          List.mem_append] at hPower
        rcases hPower with rfl | hSign | hDigit
        · rcases hWell.mark with hMark | hMark <;> simp [isNumberChar, hMark]
        · rcases hWell.sign with hKind | hKind | hKind <;> simp_all [isNumberChar]
        · exact hDigits hWell.digits c hDigit

end Numeral
end Json
end SyntaxSurvey
