import SyntaxSurvey.Text.Ranges

/-! White space: the characters that are trimmed from the ends of a text and that separate its
words. The set is that of the Unicode property together with the four information separators;
the zero width space is not in it. -/

namespace SyntaxSurvey.Text

def blankRanges : Ranges :=
  [(0x9, 0xd), (0x1c, 0x20), (0x85, 0x85), (0xa0, 0xa0), (0x1680, 0x1680), (0x2000, 0x200a),
   (0x2028, 0x2029), (0x202f, 0x202f), (0x205f, 0x205f), (0x3000, 0x3000)]

def isBlank (c : Char) : Bool :=
  blankRanges.covers c.toNat

def trimStart (cs : List Char) : List Char :=
  cs.dropWhile isBlank

def trim (cs : List Char) : List Char :=
  (trimStart (trimStart cs).reverse).reverse

/-- The maximal runs of characters that are not white space, in order. -/
def words : List Char → List (List Char)
  | [] => []
  | c :: rest =>
    if isBlank c then words rest
    else match rest, words rest with
      | d :: _, word :: others =>
        if isBlank d then [c] :: word :: others else (c :: word) :: others
      | _, others => [c] :: others

/-- The words of a text with one space between neighbours. -/
def collapse (cs : List Char) : List Char :=
  [' '].intercalate (words cs)

end SyntaxSurvey.Text
