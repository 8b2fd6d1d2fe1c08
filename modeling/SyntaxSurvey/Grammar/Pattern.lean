/-! Patterns of tokens. A pattern matches at a place in a text, by trying alternatives in order and
repetitions greedily or lazily; what is found first counts, and it need not be the longest. The
matcher goes down the pattern with a continuation for what has to match afterwards. -/

namespace SyntaxSurvey.Grammar

inductive Pattern where
  /-- The empty text. -/
  | empty
  /-- One character of a set. -/
  | one (accepts : Char → Bool)
  /-- One pattern and then another. -/
  | seq (first second : Pattern)
  /-- One of two patterns, the first one preferred. -/
  | alt (first second : Pattern)
  /-- Any number of repetitions, as many as possible. -/
  | many (body : Pattern)
  /-- Any number of repetitions, as few as possible. -/
  | few (body : Pattern)
  /-- The empty text, where a pattern does not match. -/
  | notAhead (body : Pattern)
  /-- The empty text, except after a character of a set. -/
  | notBehind (accepts : Char → Bool)

namespace Pattern

/-- A place in a text: the character before it, the text after it, and how many characters were
matched on the way to it. -/
structure Place where
  before : Option Char
  ahead : List Char
  taken : Nat

/-- What has to match after a pattern: the end of the match, when there is one. -/
abbrev Continuation := Place → Option Nat

/-- Repeat a step. The budget has a character for each that is ahead, so a body that takes at
least one is repeated as often as it can be. -/
def iterate (greedy : Bool) (step : Place → Continuation → Option Nat) :
    (budget : List Char) → Place → Continuation → Option Nat
  | [], place, next => next place
  | _ :: budget, place, next =>
    if greedy then
      match step place fun place => iterate greedy step budget place next with
      | some taken => some taken
      | none => next place
    else
      match next place with
      | some taken => some taken
      | none => step place fun place => iterate greedy step budget place next

/-- Match a pattern and then what has to match after it. -/
def run : Pattern → Place → Continuation → Option Nat
  | .empty, place, next => next place
  | .one accepts, place, next =>
    match place.ahead with
    | c :: rest => if accepts c then next ⟨some c, rest, place.taken + 1⟩ else none
    | [] => none
  | .seq first second, place, next => first.run place fun place => second.run place next
  | .alt first second, place, next =>
    match first.run place next with
    | some taken => some taken
    | none => second.run place next
  | .many body, place, next => iterate true (fun place next => body.run place next)
      place.ahead place next
  | .few body, place, next => iterate false (fun place next => body.run place next)
      place.ahead place next
  | .notAhead body, place, next =>
    match body.run place fun place => some place.taken with
    | some _ => none
    | none => next place
  | .notBehind accepts, place, next =>
    if place.before.any accepts then none else next place

/-- The length of the match at the start of a text. -/
def matchLength? (pattern : Pattern) (cs : List Char) : Option Nat :=
  pattern.run ⟨none, cs, 0⟩ fun place => some place.taken

def text : List Char → Pattern
  | [] => .empty
  | c :: rest => .seq (.one (· == c)) (text rest)

def oneOf (chars : String) : Pattern :=
  let cs := chars.toList
  .one cs.contains

def noneOf (chars : String) : Pattern :=
  let cs := chars.toList
  .one fun c => !cs.contains c

def between (first last : Char) : Pattern :=
  .one fun c => decide (first ≤ c) && decide (c ≤ last)

def optional (body : Pattern) : Pattern :=
  .alt body .empty

def oneOrMore (body : Pattern) : Pattern :=
  .seq body (.many body)

def sequence : List Pattern → Pattern
  | [] => .empty
  | [pattern] => pattern
  | pattern :: others => .seq pattern (sequence others)

/-- One of several patterns, earlier ones preferred. -/
def choice : List Pattern → Pattern
  | [] => .empty
  | [pattern] => pattern
  | pattern :: others => .alt pattern (choice others)

end Pattern

end SyntaxSurvey.Grammar
