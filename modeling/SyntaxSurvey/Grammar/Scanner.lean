import SyntaxSurvey.Grammar.Pattern

/-! Terminals and scanning. A scanner knows the terminals that may come next; at a place in the
text it takes the first of them, in a fixed order, that matches there. Words that would also be
identifiers are not scanned for when identifiers are: an identifier that is spelt like such a word
counts as that word. -/

namespace SyntaxSurvey.Grammar

inductive Spelling where
  | literal (chars : List Char)
  | pattern (pattern : Pattern)

structure Terminal where
  name : String
  spelling : Spelling

/-- The number of characters that a terminal takes at the start of a text. -/
def Terminal.matchLength? (t : Terminal) (cs : List Char) : Option Nat :=
  match t.spelling with
  | .literal chars => if chars.isPrefixOf cs then some chars.length else none
  | .pattern pattern => pattern.matchLength? cs

/-- A piece of text that was recognised, with the text after it. -/
structure Lexeme where
  kind : String
  chars : List Char
  rest : List Char

/-- The terminals to try, in order, and the words that identifiers may turn out to be, each with
the terminal that it is. -/
structure Scanner where
  tried : List Terminal
  words : List (String × String)

namespace Scanner

def identifier : String := "NAME"

def take? (s : Scanner) (cs : List Char) (t : Terminal) : Option Lexeme :=
  match cs, t.matchLength? cs with
  | _ :: _, some (n + 1) =>
    let chars := cs.take (n + 1)
    let kind := if t.name = identifier then
        (s.words.lookup (String.ofList chars)).getD t.name
      else t.name
    some ⟨kind, chars, cs.drop (n + 1)⟩
  | _, _ => none

def next? (s : Scanner) (cs : List Char) : Option Lexeme :=
  s.tried.findSome? (s.take? cs)

/-- Whether a terminal is a literal that an identifier could be spelt like. -/
def isWord (identifiers : Option Terminal) (t : Terminal) : Bool :=
  match identifiers, t.spelling with
  | some i, .literal chars => i.matchLength? chars == some chars.length
  | _, _ => false

/-- The scanner for the accepted ones among all terminals, which are given in scanning order. -/
def ofAccepted (terminals : List Terminal) (accepts : String → Bool) : Scanner :=
  let accepted := terminals.filter fun t => accepts t.name
  let identifiers := accepted.find? fun t => t.name == identifier
  let (words, tried) := accepted.partition (isWord identifiers)
  ⟨tried, words.filterMap fun t =>
    match t.spelling with
    | .literal chars => some (String.ofList chars, t.name)
    | .pattern _ => none⟩

variable {s : Scanner} {cs : List Char} {lexeme : Lexeme}

/-- A lexeme and the text after it make up the text that was scanned. -/
theorem chars_append_rest (h : s.next? cs = some lexeme) : lexeme.chars ++ lexeme.rest = cs := by
  obtain ⟨t, _, taken⟩ := List.exists_of_findSome?_eq_some h
  unfold take? at taken
  split at taken
  · obtain rfl := Option.some.inj taken
    exact List.take_append_drop _ _
  · simp at taken

/-- A lexeme has at least one character. -/
theorem chars_ne_nil (h : s.next? cs = some lexeme) : lexeme.chars ≠ [] := by
  obtain ⟨t, _, taken⟩ := List.exists_of_findSome?_eq_some h
  unfold take? at taken
  split at taken
  · obtain rfl := Option.some.inj taken
    simp
  · simp at taken

/-- Scanning makes the text shorter. -/
theorem rest_length_lt (h : s.next? cs = some lexeme) : lexeme.rest.length < cs.length := by
  have whole := chars_append_rest h
  have taken := List.length_pos_iff.2 (chars_ne_nil h)
  rw [← whole, List.length_append]
  omega

end Scanner

end SyntaxSurvey.Grammar
