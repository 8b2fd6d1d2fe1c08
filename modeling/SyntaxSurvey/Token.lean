/-! Tokens and where they stand. Lines and columns start at one, columns count characters, and only
the line feed ends a line. -/

namespace SyntaxSurvey

/-- A place in a text between two characters. -/
structure Position where
  line : Nat
  column : Nat
  deriving DecidableEq, Repr, Inhabited

namespace Position

def first : Position :=
  ⟨1, 1⟩

def advance (p : Position) (c : Char) : Position :=
  if c = '\n' then ⟨p.line + 1, 1⟩ else ⟨p.line, p.column + 1⟩

def after (p : Position) (cs : List Char) : Position :=
  cs.foldl advance p

@[simp]
theorem after_nil (p : Position) : p.after [] = p := rfl

theorem after_append (p : Position) (cs ds : List Char) :
    p.after (cs ++ ds) = (p.after cs).after ds :=
  List.foldl_append

end Position

/-- A token: the terminal it belongs to, its text, and where it starts and stops. A token that
layout puts in has the place of the line end that it comes from. -/
structure Token where
  kind : String
  text : String
  start : Position
  stop : Position
  deriving DecidableEq, Repr, Inhabited

def Token.inPlace (t : Token) (kind text : String) : Token :=
  ⟨kind, text, t.start, t.stop⟩

end SyntaxSurvey
