import SyntaxSurvey.Grammar.Scanner
import SyntaxSurvey.Text.Word

/-! The terminals of Python 3 in scanning order: first those given by patterns, then fixed texts,
longer ones before shorter ones. Indentation and the end of the text have no spelling. -/

namespace SyntaxSurvey.Grammar.Python

open Pattern

def digit : Pattern :=
  between '0' '9'

/-- Pieces with at most one underscore before each. -/
def grouped (piece : Pattern) : Pattern :=
  seq (optional (oneOf "_")) piece

def digits : Pattern :=
  seq digit (many (grouped digit))

def powerOfTen : Pattern :=
  sequence [oneOf "eE", optional (oneOf "+-"), digits]

def pointNumber : Pattern :=
  alt (seq digits powerOfTen)
    (seq (alt (sequence [digits, oneOf ".", optional digits]) (seq (oneOf ".") digits))
      (optional powerOfTen))

/-- A zero, the letter of a base, and digits of that base. -/
def basedNumber (letter : String) (baseDigit : Pattern) : Pattern :=
  sequence [oneOf "0", oneOf letter, oneOrMore (grouped baseDigit)]

def wholeNumber : Pattern :=
  alt (sequence [oneOf "0", many (grouped (oneOf "0")), notAhead (between '1' '9')])
    (seq (between '1' '9') (many (grouped digit)))

/-- The letters before a quote. -/
def quoteMark : Pattern :=
  alt (seq (optional (oneOf "ubfUBF")) (optional (oneOf "rR"))) (seq (oneOf "rR") (oneOf "ubfUBF"))

/-- What closes a text: the quote after an even number of backslashes. -/
def closing (quote : List Char) : Pattern :=
  sequence [notBehind (· == '\\'), few (text ['\\', '\\']), text quote]

/-- A text on one line, between single or between double quotes. -/
def shortString : Pattern :=
  let delimited (quote : Char) : Pattern :=
    sequence [text [quote], notAhead (text [quote, quote]), few (noneOf "\n"), closing [quote]]
  seq quoteMark (alt (delimited '"') (delimited '\''))

def longString : Pattern :=
  let delimited (quote : Char) : Pattern :=
    let three := [quote, quote, quote]
    sequence [text three, few (one fun _ => true), closing three]
  seq quoteMark (alt (delimited '"') (delimited '\''))

def lineEnd : Pattern :=
  seq (optional (oneOf "\r")) (oneOf "\n")

def remark : Pattern :=
  seq (oneOf "#") (many (noneOf "\n"))

def newlines : Pattern :=
  oneOrMore (alt (seq lineEnd (many (oneOf "\t "))) remark)

/-- A line end that does not count. -/
def continuedLine : Pattern :=
  sequence [oneOf "\\", many (oneOf "\t \x0c"), lineEnd]

def identifier : Pattern :=
  seq (one fun c => Text.isWordChar c && !Text.isDecimal c) (many (one Text.isWordChar))

def patterned : List (String × Pattern) :=
  [("IMAG_NUMBER", seq (alt pointNumber digits) (oneOf "Jj")), ("FLOAT_NUMBER", pointNumber),
   ("HEX_NUMBER", basedNumber "xX" (choice [digit, between 'a' 'f', between 'A' 'F'])),
   ("BIN_NUMBER", basedNumber "bB" (between '0' '1')),
   ("OCT_NUMBER", basedNumber "oO" (between '0' '7')), ("STRING", shortString),
   ("LONG_STRING", longString), ("DEC_NUMBER", wholeNumber), ("_NEWLINE", newlines),
   ("__IGNORE_1", continuedLine), ("NAME", identifier), ("COMMENT", remark),
   ("__IGNORE_0", oneOrMore (oneOf "\t \x0c"))]

def fixed : List (String × String) :=
  [("CONTINUE", "continue"), ("NONLOCAL", "nonlocal"), ("FINALLY", "finally"),
   ("ASSERT", "assert"), ("EXCEPT", "except"), ("GLOBAL", "global"), ("IMPORT", "import"),
   ("LAMBDA", "lambda"), ("RETURN", "return"), ("ASYNC", "async"), ("AWAIT", "await"),
   ("BREAK", "break"), ("CLASS", "class"), ("FALSE", "False"), ("MATCH", "match"),
   ("RAISE", "raise"), ("WHILE", "while"), ("YIELD", "yield"), ("CASE", "case"), ("ELIF", "elif"),
   ("ELSE", "else"), ("FROM", "from"), ("NONE", "None"), ("PASS", "pass"), ("TRUE", "True"),
   ("WITH", "with"), ("AND", "and"), ("DEF", "def"), ("DEL", "del"), ("FOR", "for"),
   ("NOT", "not"), ("TRY", "try"), ("__ANON_11", "<<="), ("__ANON_12", ">>="),
   ("__ANON_13", "**="), ("__ANON_14", "//="), ("__ANON_24", "..."), ("AS", "as"), ("IF", "if"),
   ("IN", "in"), ("IS", "is"), ("OR", "or"), ("__ANON_0", "->"), ("__ANON_1", "**"),
   ("__ANON_10", "^="), ("__ANON_15", ":="), ("__ANON_16", "<<"), ("__ANON_17", ">>"),
   ("__ANON_18", "//"), ("__ANON_19", "=="), ("__ANON_2", "+="), ("__ANON_20", ">="),
   ("__ANON_21", "<="), ("__ANON_22", "<>"), ("__ANON_23", "!="), ("__ANON_3", "-="),
   ("__ANON_4", "*="), ("__ANON_5", "@="), ("__ANON_6", "/="), ("__ANON_7", "%="),
   ("__ANON_8", "&="), ("__ANON_9", "|="), ("AMPERSAND", "&"), ("AT", "@"), ("CIRCUMFLEX", "^"),
   ("COLON", ":"), ("COMMA", ","), ("DOT", "."), ("EQUAL", "="), ("LBRACE", "\x7b"),
   ("LESSTHAN", "<"), ("LPAR", "("), ("LSQB", "["), ("MINUS", "-"), ("MORETHAN", ">"),
   ("PERCENT", "%"), ("PLUS", "+"), ("RBRACE", "\x7d"), ("RPAR", ")"), ("RSQB", "]"),
   ("SEMICOLON", ";"), ("SLASH", "/"), ("STAR", "*"), ("TILDE", "~"), ("UNDERSCORE", "_"),
   ("VBAR", "|")]

/-- All terminals that have a spelling, in scanning order. -/
def terminals : List Terminal :=
  patterned.map (fun (name, pattern) => ⟨name, .pattern pattern⟩)
    ++ fixed.map (fun (name, chars) => ⟨name, .literal chars.toList⟩)

def ignored : List String :=
  ["__IGNORE_0", "__IGNORE_1", "COMMENT"]

end SyntaxSurvey.Grammar.Python
