import SyntaxSurvey.Text.Utf8

/-! Documents: source files as text. A byte order mark at the start is dropped, each kind of line
end becomes a line feed, and the last line gets one if it has none. -/

namespace SyntaxSurvey.Document

open Text

def mark : List UInt8 := [0xef, 0xbb, 0xbf]

/-- The bytes without a byte order mark. A file that is only the beginning of one is empty. -/
def withoutMark (bytes : List UInt8) : List UInt8 :=
  match bytes with
  | 0xef :: 0xbb :: 0xbf :: rest => rest
  | [0xef] => []
  | [0xef, 0xbb] => []
  | _ => bytes

/-- The text with a line feed for each line end; `done` holds what was read, last character
first. -/
def uniformFrom (done : List Char) : List Char → List Char
  | [] => done.reverse
  | '\r' :: '\n' :: rest => uniformFrom ('\n' :: done) rest
  | c :: rest => uniformFrom ((if c = '\r' then '\n' else c) :: done) rest

def uniform (cs : List Char) : List Char :=
  uniformFrom [] cs

def terminated (cs : List Char) : List Char :=
  if cs.getLast? = some '\n' then cs else cs ++ ['\n']

def read (bytes : List UInt8) : Except Utf8.Defect String :=
  (Utf8.decode (withoutMark bytes)).map fun cs => String.ofList (terminated (uniform cs))

end SyntaxSurvey.Document
