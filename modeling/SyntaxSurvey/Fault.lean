import SyntaxSurvey.Text.Lines
import SyntaxSurvey.Text.Quoted
import SyntaxSurvey.Token

/-! What can go wrong while a text is parsed, and how it is put into words. -/

namespace SyntaxSurvey

/-- A place as a fault reports it. Either number may be missing or be no place at all. -/
structure Spot where
  line : Option Int
  column : Option Int
  deriving DecidableEq, Repr, Inhabited

def Spot.ofPosition (p : Position) : Spot :=
  ⟨some p.line, some p.column⟩

def Spot.unknown : Spot :=
  ⟨none, none⟩

/-- A number of a place as it is recorded: zero unless it is a natural number. -/
def Spot.natural (n : Option Int) : Int :=
  match n with
  | some n => if 0 ≤ n then n else 0
  | none => 0

inductive Fault where
  /-- A token that may not stand where it stands. -/
  | unexpectedToken (kind text : String) (spot : Spot) (expected : List String)
  /-- A character that no token starts with. -/
  | unexpectedCharacter (char : Char) (spot : Spot)
  /-- The text ended where something was missing. -/
  | unexpectedEnd (expected : List String)
  /-- A line that is indented like none of the lines that it could belong to. -/
  | misalignedLine (message : String)
  /-- A closing bracket that was let through although no bracket is open. -/
  | unbalancedBracket
  /-- A line end that was only a remark at the end of the text. -/
  | remarkAtEnd
  /-- Any other failure, with its kind and its message. -/
  | other (kind message : String) (spot : Spot)
  deriving DecidableEq, Repr, Inhabited

/-- The terminal that stands for the end of the text in a fault. -/
def Fault.endKind : String := "$END"

namespace Fault

/-- The fault of a token that is not among the expected ones. -/
def ofToken (token : Token) (expected : List String) : Fault :=
  .unexpectedToken token.kind token.text (.ofPosition token.start) expected

/-- The fault of a line whose indentation has `width` columns where `expected` were possible. -/
def ofDedent (width expected : Nat) : Fault :=
  .misalignedLine s!"Unexpected dedent to column {width}. Expected dedent to {expected}"

/-- A failure with at most one argument. A failed look-up shows its key in quotes. -/
def ofForeign (kind : String) (argument : Option String) (spot : Spot) : Fault :=
  let message := match argument with
    | none => ""
    | some text => if kind = "KeyError" then Text.quoted text else text
  .other kind message spot

def kind : Fault → String
  | .unexpectedToken .. => "UnexpectedToken"
  | .unexpectedCharacter .. => "UnexpectedCharacters"
  | .unexpectedEnd _ => "UnexpectedEOF"
  | .misalignedLine _ => "DedentError"
  | .unbalancedBracket => "AssertionError"
  | .remarkAtEnd => "IndexError"
  | .other kind _ _ => kind

def spot : Fault → Spot
  | .unexpectedToken _ _ spot _ => spot
  | .unexpectedCharacter _ spot => spot
  | .unexpectedEnd _ => ⟨some (-1), some (-1)⟩
  | .misalignedLine _ => .unknown
  | .unbalancedBracket => .unknown
  | .remarkAtEnd => .unknown
  | .other _ _ spot => spot

/-- Names in the order of their code points, each once. -/
def sortedNames (names : List String) : List String :=
  (names.mergeSort fun a b => decide (a ≤ b)).eraseDups

def message : Fault → String
  | .unexpectedToken .. => ""
  | .unexpectedCharacter .. => ""
  | .unexpectedEnd expected =>
    "Unexpected end-of-input. Expected one of: \n\t* "
      ++ "\n\t* ".intercalate (sortedNames expected) ++ "\n"
  | .misalignedLine message => message
  | .unbalancedBracket => ""
  | .remarkAtEnd => "list index out of range"
  | .other _ message _ => message

/-- One line that describes a fault. A fault without words is described by its kind. -/
def description (f : Fault) : String :=
  match f with
  | .unexpectedToken kind text _ expected =>
    let found := if kind = endKind then "unexpected end of input"
      else s!"unexpected {kind} {Text.quoted text}"
    if expected.isEmpty then found
    else found ++ ", expected one of: " ++ ", ".intercalate (sortedNames expected)
  | .unexpectedCharacter char _ => s!"no viable token at {Text.quoted (String.singleton char)}"
  | f => (Text.firstLine? f.message).getD f.kind

/-- Whether a fault is one of the text that was parsed, and therefore recorded; the others are
defects of the layout rules and leave the parser. -/
def isSyntactic : Fault → Bool
  | .unexpectedToken .. => true
  | .unexpectedCharacter .. => true
  | .unexpectedEnd _ => true
  | .misalignedLine _ => true
  | _ => false

/-- Whether a fault is that of the end of the text. -/
def isAtEnd : Fault → Bool
  | .unexpectedToken kind _ _ _ => kind == endKind
  | _ => false

end Fault

end SyntaxSurvey
