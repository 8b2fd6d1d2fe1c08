import SyntaxSurvey.Json.Reader

/-! The grammar of JSON, as a relation between texts and the values that they denote. It says what a
text is made of and nothing of how it is read. JSON has no numerals for the infinities and for what is
not a number; the extended grammar has words for them. -/

namespace SyntaxSurvey.Json

open Number (Quantity Binary64)

/-- The exponent of a numeral, as it was written. -/
structure Power where
  mark : Char
  sign : List Char
  digits : List Char
  deriving DecidableEq

structure AreDigits (cs : List Char) : Prop where
  some : cs ≠ []
  all : ∀ c ∈ cs, c.isDigit

namespace Power

/-- Its letter, sign and digits are those that an exponent may have. -/
structure WellFormed (power : Power) : Prop where
  mark : power.mark = 'e' ∨ power.mark = 'E'
  sign : power.sign = [] ∨ power.sign = ['+'] ∨ power.sign = ['-']
  digits : AreDigits power.digits

def text (power : Power) : List Char :=
  power.mark :: power.sign ++ power.digits

def value (power : Power) : Int :=
  if power.sign = ['-'] then -(Nat.ofDigitChars 10 power.digits 0 : Int)
  else Nat.ofDigitChars 10 power.digits 0

end Power

/-- A numeral, as it was written: its sign, the digits before the point, those after it if there is a
point, and the exponent if there is one. -/
structure Numeral where
  negative : Bool
  whole : List Char
  fraction : Option (List Char)
  power : Option Power

namespace Numeral

/-- Its digits are digits, no zero stands before others, and a digit follows the point. -/
structure WellFormed (numeral : Numeral) : Prop where
  whole : AreDigits numeral.whole
  leading : numeral.whole.head? = some '0' → numeral.whole = ['0']
  fraction : ∀ digits, numeral.fraction = some digits → AreDigits digits
  power : ∀ power, numeral.power = some power → power.WellFormed

/-- The characters of a numeral after its sign. -/
def body (numeral : Numeral) : List Char :=
  numeral.whole ++ (numeral.fraction.elim [] ('.' :: ·) ++ numeral.power.elim [] Power.text)

def text (numeral : Numeral) : List Char :=
  (if numeral.negative then ['-'] else []) ++ numeral.body

/-- The number that a numeral denotes. It is an integer if there is neither a point nor an exponent,
and else the number of the 64-bit format that is nearest. -/
def value (numeral : Numeral) : Quantity :=
  if numeral.fraction = none ∧ numeral.power = none then
    let n := Nat.ofDigitChars 10 numeral.whole 0
    .integer (if numeral.negative then -(n : Int) else n)
  else
    let places := numeral.fraction.getD []
    .real (Binary64.ofDecimal numeral.negative (Nat.ofDigitChars 10 (numeral.whole ++ places) 0)
      (numeral.power.elim 0 Power.value - places.length))

end Numeral

/-- What stands between quotes, and the characters that it denotes. -/
inductive Quoted : List Char → List Char → Prop where
  | nil : Quoted [] []
  | plain {c : Char} {text cs : List Char} (control : 0x20 ≤ c.toNat) (quote : c ≠ '"')
      (backslash : c ≠ '\\') (rest : Quoted text cs) : Quoted (c :: text) (c :: cs)
  | short {letter c : Char} {text cs : List Char} (escape : shortEscape? letter = some c)
      (rest : Quoted text cs) : Quoted ('\\' :: letter :: text) (c :: cs)
  | unit {a b c d : Char} {n : Nat} {text cs : List Char} (digits : hexUnit? a b c d = some n)
      (whole : n < 0xd800 ∨ 0xe000 ≤ n) (rest : Quoted text cs) :
      Quoted ('\\' :: 'u' :: a :: b :: c :: d :: text) (Char.ofNat n :: cs)
  | pair {a b c d e f g h : Char} {high low : Nat} {text cs : List Char}
      (first : hexUnit? a b c d = some (0xd800 + high)) (highBound : high < 0x400)
      (second : hexUnit? e f g h = some (0xdc00 + low)) (lowBound : low < 0x400)
      (rest : Quoted text cs) :
      Quoted ('\\' :: 'u' :: a :: b :: c :: d :: '\\' :: 'u' :: e :: f :: g :: h :: text)
        (Char.ofNat (0x10000 + high * 0x400 + low) :: cs)

/-- White space, or nothing. -/
def IsBlank (cs : List Char) : Prop :=
  ∀ c ∈ cs, isSpace c

inductive Word : List Char → Binary64 → Prop where
  | notANumber : Word "NaN".toList (.notANumber false)
  | infinite : Word "Infinity".toList (.infinite false)
  | negativeInfinite : Word "-Infinity".toList (.infinite true)

mutual

/-- A text without white space around it, and the value that it denotes. -/
inductive Derives (extended : Bool) : List Char → Json → Prop where
  | null : Derives extended "null".toList .null
  | bool (value : Bool) :
      Derives extended (if value then "true" else "false").toList (.bool value)
  | number {numeral : Numeral} (h : numeral.WellFormed) :
      Derives extended numeral.text (.number numeral.value)
  | word {text : List Char} {x : Binary64} (allowed : extended = true) (h : Word text x) :
      Derives extended text (.number (.real x))
  | string {text cs : List Char} (h : Quoted text cs) :
      Derives extended ('"' :: text ++ ['"']) (.string (String.ofList cs))
  | noItems {blank : List Char} (h : IsBlank blank) :
      Derives extended ('[' :: blank ++ [']']) (.array [])
  | items {text : List Char} {items : List Json} (h : DerivesItems extended text items) :
      Derives extended ('[' :: text ++ [']']) (.array items)
  | noFields {blank : List Char} (h : IsBlank blank) :
      Derives extended ('\x7b' :: blank ++ ['\x7d']) (.object [])
  | fields {text : List Char} {fields : List (String × Json)}
      (h : DerivesFields extended text fields) :
      Derives extended ('\x7b' :: text ++ ['\x7d']) (.object fields)

/-- One item or more, with commas between them. -/
inductive DerivesItems (extended : Bool) : List Char → List Json → Prop where
  | last {before text after : List Char} {item : Json} (left : IsBlank before)
      (h : Derives extended text item) (right : IsBlank after) :
      DerivesItems extended (before ++ text ++ after) [item]
  | more {before text after rest : List Char} {item : Json} {items : List Json}
      (left : IsBlank before) (h : Derives extended text item) (right : IsBlank after)
      (others : DerivesItems extended rest items) :
      DerivesItems extended (before ++ text ++ after ++ ',' :: rest) (item :: items)

/-- One field or more, with commas between them. -/
inductive DerivesFields (extended : Bool) : List Char → List (String × Json) → Prop where
  | last {before quoted key middle inner text after : List Char} {value : Json}
      (left : IsBlank before) (name : Quoted quoted key) (beforeColon : IsBlank middle)
      (afterColon : IsBlank inner) (h : Derives extended text value) (right : IsBlank after) :
      DerivesFields extended
        (before ++ '"' :: quoted ++ '"' :: middle ++ ':' :: inner ++ text ++ after)
        [(String.ofList key, value)]
  | more {before quoted key middle inner text after rest : List Char} {value : Json}
      {fields : List (String × Json)} (left : IsBlank before) (name : Quoted quoted key)
      (beforeColon : IsBlank middle) (afterColon : IsBlank inner) (h : Derives extended text value)
      (right : IsBlank after) (others : DerivesFields extended rest fields) :
      DerivesFields extended
        (before ++ '"' :: quoted ++ '"' :: middle ++ ':' :: inner ++ text ++ after ++ ',' :: rest)
        ((String.ofList key, value) :: fields)

end

/-- A whole text, which may have white space around it, and the value that it denotes. -/
def Denotes (extended : Bool) (cs : List Char) (value : Json) : Prop :=
  ∃ before text after, IsBlank before ∧ IsBlank after ∧ cs = before ++ text ++ after
    ∧ Derives extended text value

end SyntaxSurvey.Json
