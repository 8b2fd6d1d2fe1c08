/-! Sets of characters given by a table of code point ranges. -/

namespace SyntaxSurvey.Text

/-- Code point ranges, both ends included. -/
abbrev Ranges := List (Nat × Nat)

def Ranges.covers (ranges : Ranges) (point : Nat) : Bool :=
  ranges.any fun range => decide (range.1 ≤ point) && decide (point ≤ range.2)

end SyntaxSurvey.Text
