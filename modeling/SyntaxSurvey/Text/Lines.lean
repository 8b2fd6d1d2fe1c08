import SyntaxSurvey.Text.Blank

/-! Lines of a text in the wide sense of Unicode: besides the line feed, the carriage return and
the pair of both, also the vertical tab, the form feed, three of the information separators, the
next-line control and the two dedicated separators end a line. -/

namespace SyntaxSurvey.Text

def lineBreakRanges : Ranges :=
  [(0x0a, 0x0d), (0x1c, 0x1e), (0x85, 0x85), (0x2028, 0x2029)]

def isLineBreak (c : Char) : Bool :=
  lineBreakRanges.covers c.toNat

/-- The lines of a text without their ends. A carriage return followed by a line feed is one
end, and the end of the last line starts no further line. -/
def lines : List Char → List (List Char)
  | [] => []
  | '\r' :: '\n' :: rest => [] :: lines rest
  | c :: rest =>
    if isLineBreak c then [] :: lines rest
    else match lines rest with
      | [] => [[c]]
      | line :: others => (c :: line) :: others

/-- The first line of the trimmed text, or nothing when the text is blank. -/
def firstLine? (s : String) : Option String :=
  (lines (trim s.toList)).head?.map String.ofList

/-- The last line of the trimmed text, or nothing when the text is blank. -/
def lastLine? (s : String) : Option String :=
  (lines (trim s.toList)).getLast?.map String.ofList

end SyntaxSurvey.Text
