import SyntaxSurvey.Json.Value

/-! Reading JSON. The reader goes down the structure of the text with a budget of one step a
character, which is enough since every step but the last takes a character away. -/

namespace SyntaxSurvey.Json

open Number (Quantity Binary64 Decimal)

def isSpace (c : Char) : Bool :=
  c == ' ' || c == '\n' || c == '\r' || c == '\t'

def skipSpace (cs : List Char) : List Char :=
  cs.dropWhile isSpace

def hexValue? (c : Char) : Option Nat :=
  if c.isDigit then some (c.toNat - '0'.toNat)
  else if 'a' ≤ c ∧ c ≤ 'f' then some (c.toNat - 'a'.toNat + 10)
  else if 'A' ≤ c ∧ c ≤ 'F' then some (c.toNat - 'A'.toNat + 10)
  else none

def hexUnit? (a b c d : Char) : Option Nat := do
  let a ← hexValue? a
  let b ← hexValue? b
  let c ← hexValue? c
  let d ← hexValue? d
  return ((a * 16 + b) * 16 + c) * 16 + d

/-- The character that a one-letter escape stands for. -/
def shortEscape? (c : Char) : Option Char :=
  if c == 'n' then some '\n'
  else if c == 'r' then some '\r'
  else if c == 't' then some '\t'
  else if c == 'b' then some '\x08'
  else if c == 'f' then some '\x0c'
  else if c == '"' || c == '\\' || c == '/' then some c
  else none

/-- A high and a low half of a pair that stand for one code point. -/
def pair? (high low : Nat) : Option Char :=
  if 0xd800 ≤ high ∧ high < 0xdc00 ∧ 0xdc00 ≤ low ∧ low < 0xe000 then
    some (Char.ofNat (0x10000 + (high - 0xd800) * 0x400 + (low - 0xdc00)))
  else none

/-- A code unit on its own; halves of pairs are replaced. -/
def single (unit : Nat) : Char :=
  if 0xd800 ≤ unit ∧ unit < 0xe000 then '\ufffd' else Char.ofNat unit

/-- Read a text after its opening quote; `done` holds what was read, last character first. -/
def readString? (done : List Char) : List Char → Option (List Char × List Char)
  | [] => none
  | '"' :: rest => some (done.reverse, rest)
  | '\\' :: 'u' :: a :: b :: c :: d :: '\\' :: 'u' :: e :: f :: g :: h :: rest =>
    match hexUnit? a b c d, hexUnit? e f g h with
    | some first, some second =>
      match pair? first second with
      | some char => readString? (char :: done) rest
      | none =>
        readString? (single first :: done) ('\\' :: 'u' :: e :: f :: g :: h :: rest)
    | some first, none =>
      readString? (single first :: done) ('\\' :: 'u' :: e :: f :: g :: h :: rest)
    | none, _ => none
  | '\\' :: 'u' :: a :: b :: c :: d :: rest =>
    match hexUnit? a b c d with
    | some unit => readString? (single unit :: done) rest
    | none => none
  | '\\' :: c :: rest =>
    match shortEscape? c with
    | some char => readString? (char :: done) rest
    | none => none
  | c :: rest => if c.toNat < 0x20 then none else readString? (c :: done) rest

def isNumberChar (c : Char) : Bool :=
  c.isDigit || c == '-' || c == '+' || c == '.' || c == 'e' || c == 'E'

/-- A number: an integer when it has only digits after its sign, else a real number. -/
def ofNumberText? (cs : List Char) : Option Quantity :=
  let (negative, digits) := match cs with
    | '-' :: rest => (true, rest)
    | _ => (false, cs)
  if !digits.isEmpty && digits.all Char.isDigit then
    let (n, _, _) := Decimal.takeDigits 0 0 digits
    some (.integer (if negative then -(n : Int) else n))
  else (Decimal.read? digits).map fun decimal => .real (decimal.toBinary64 negative)

/-- The rest of the text after a word. -/
def afterWord? (word : String) (cs : List Char) : Option (List Char) :=
  if word.toList.isPrefixOf cs then some (cs.drop word.length) else none

/-- A value that is written as a word or a number. -/
def readPlain? (cs : List Char) : Option (Json × List Char) :=
  match afterWord? "null" cs with
  | some rest => some (.null, rest)
  | none =>
  match afterWord? "true" cs with
  | some rest => some (.bool true, rest)
  | none =>
  match afterWord? "false" cs with
  | some rest => some (.bool false, rest)
  | none =>
  match afterWord? "NaN" cs with
  | some rest => some (.number (.real (.notANumber false)), rest)
  | none =>
  match afterWord? "Infinity" cs with
  | some rest => some (.number (.real (.infinite false)), rest)
  | none =>
  match afterWord? "-Infinity" cs with
  | some rest => some (.number (.real (.infinite true)), rest)
  | none =>
    (ofNumberText? (cs.takeWhile isNumberChar)).map fun n =>
      (.number n, cs.dropWhile isNumberChar)

mutual

/-- Read a value and return what follows it. -/
def readValue? (budget : Nat) (cs : List Char) : Option (Json × List Char) :=
  match budget with
  | 0 => none
  | budget + 1 =>
    match skipSpace cs with
    | '"' :: rest => (readString? [] rest).map fun (s, rest) => (.string (String.ofList s), rest)
    | '[' :: rest =>
      match skipSpace rest with
      | ']' :: rest => some (.array [], rest)
      | rest => (readItems? budget [] rest).map fun (items, rest) => (.array items, rest)
    | '\x7b' :: rest =>
      match skipSpace rest with
      | '\x7d' :: rest => some (.object [], rest)
      | rest => (readFields? budget [] rest).map fun (fields, rest) => (.object fields, rest)
    | rest => readPlain? rest

def readItems? (budget : Nat) (done : List Json) (cs : List Char) :
    Option (List Json × List Char) :=
  match budget with
  | 0 => none
  | budget + 1 =>
    match readValue? budget cs with
    | none => none
    | some (item, rest) =>
      match skipSpace rest with
      | ',' :: rest => readItems? budget (item :: done) rest
      | ']' :: rest => some ((item :: done).reverse, rest)
      | _ => none

def readFields? (budget : Nat) (done : List (String × Json)) (cs : List Char) :
    Option (List (String × Json) × List Char) :=
  match budget with
  | 0 => none
  | budget + 1 =>
    match skipSpace cs with
    | '"' :: rest =>
      match readString? [] rest with
      | none => none
      | some (key, rest) =>
        match skipSpace rest with
        | ':' :: rest =>
          match readValue? budget rest with
          | none => none
          | some (value, rest) =>
            let field := (String.ofList key, value)
            match skipSpace rest with
            | ',' :: rest => readFields? budget (field :: done) rest
            | '\x7d' :: rest => some ((field :: done).reverse, rest)
            | _ => none
        | _ => none
    | _ => none

end

def read? (s : String) : Option Json :=
  let cs := s.toList
  match readValue? (cs.length + 1) cs with
  | some (value, rest) => if (skipSpace rest).isEmpty then some value else none
  | none => none

end SyntaxSurvey.Json
