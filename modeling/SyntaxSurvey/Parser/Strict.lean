import SyntaxSurvey.Parser.Attempt

/-! Parsing without going on. The first fault of a text ends it, and there is either that fault or a
tree. -/

namespace SyntaxSurvey.Parser

/-- What an attempt comes to when nobody lets it go on after a fault. -/
def Attempt.strictly : Attempt → Except Fault Tree
  | .parsed tree => .ok tree
  | .broken fault => .error fault
  | .paused fault _ => .error fault

def parseStrictly (t : Grammar.Table) (text : String) : Except Fault Tree :=
  (attempt t text).strictly

end SyntaxSurvey.Parser
