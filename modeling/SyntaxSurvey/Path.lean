import SyntaxSurvey.Text.Quoted

/-! Paths in the POSIX sense, kept in a normal form: repeated separators, components that name the
directory itself and a separator at the end leave no trace. A component that names the parent
directory stays, since what it denotes depends on links. -/

namespace SyntaxSurvey

inductive Anchor where
  | here
  | root
  | doubleRoot
  deriving DecidableEq, Repr

def Anchor.text : Anchor → String
  | .here => ""
  | .root => "/"
  | .doubleRoot => "//"

/-- A path: an anchor and the names on the way from it. -/
structure Path where
  anchor : Anchor
  parts : List String
  deriving DecidableEq, Repr

namespace Path

def current : Path :=
  ⟨.here, []⟩

/-- The pieces of a text between separators. -/
def splitSlash : List Char → List (List Char)
  | [] => [[]]
  | c :: rest =>
    if c = '/' then [] :: splitSlash rest
    else match splitSlash rest with
      | [] => [[c]]
      | piece :: others => (c :: piece) :: others

/-- A piece that is a component of its own. -/
def isComponent (piece : List Char) : Bool :=
  !piece.isEmpty && piece != ['.']

def ofString (s : String) : Path :=
  let cs := s.toList
  let anchor := match cs with
    | '/' :: '/' :: '/' :: _ => Anchor.root
    | '/' :: '/' :: _ => Anchor.doubleRoot
    | '/' :: _ => Anchor.root
    | _ => Anchor.here
  ⟨anchor, ((splitSlash cs).filter isComponent).map String.ofList⟩

def text (p : Path) : String :=
  if p.anchor = .here ∧ p.parts = [] then "."
  else p.anchor.text ++ "/".intercalate p.parts

def name (p : Path) : String :=
  p.parts.getLast?.getD ""

def parent (p : Path) : Path :=
  ⟨p.anchor, p.parts.dropLast⟩

def child (p : Path) (name : String) : Path :=
  ⟨p.anchor, p.parts ++ [name]⟩

/-- The path of an entry further below the directory `p`. -/
def below (p : Path) (parts : List String) : Path :=
  ⟨p.anchor, p.parts ++ parts⟩

/-- The order of paths with the same anchor: that of their component lists, in which components
are compared by code points. -/
def notAfter (p q : Path) : Bool :=
  !decide (q.parts < p.parts)

end Path

end SyntaxSurvey
