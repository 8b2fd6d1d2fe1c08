import SyntaxSurvey.Text.Quoted

/-! The program that turns the text of a graph into an image. It is not part of this library: all
that is known of it is what it makes of each text. -/

namespace SyntaxSurvey

inductive Renderer.Failure where
  /-- The program is not there. -/
  | missing
  /-- The program ended with a status other than zero, after it wrote a complaint. -/
  | stopped (status : Nat) (complaint : List UInt8)
  deriving DecidableEq, Repr

def Renderer.Failure.message : Renderer.Failure → String
  | .missing =>
    "failed to execute PosixPath('dot'), "
      ++ "make sure the Graphviz executables are on your systems' PATH"
  | .stopped status complaint =>
    s!"Command '[PosixPath('dot'), '-Kdot', '-Tpng']' returned non-zero exit status {status}."
      ++ " [stderr: " ++ Text.quotedBytes complaint ++ "]"

/-- What becomes of the text of a graph: the bytes of an image or a failure. -/
abbrev Renderer := String → Except Renderer.Failure (List UInt8)

end SyntaxSurvey
