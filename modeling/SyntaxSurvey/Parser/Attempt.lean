import SyntaxSurvey.Parser.Layout
import SyntaxSurvey.Parser.Stack

/-! Parsing as a conversation. An attempt at a text pauses at each fault of the text; whoever drives
it may let it go on. Going on drops the token or the character at which it paused, keeps what the
grammar has read so far, and starts the layout anew. -/

namespace SyntaxSurvey.Parser

open Grammar

/-- An attempt to parse a text, as far as it got. -/
inductive Attempt where
  /-- The text was read to its end. -/
  | parsed (tree : Tree)
  /-- The attempt is over without a tree. -/
  | broken (fault : Fault)
  /-- There is a fault; the attempt can go on after it. -/
  | paused (fault : Fault) (resume : Unit → Attempt)

/-- The token for the end of the text. It has the place of the token before, or that of the start of
the text if there is no such token or it is empty. -/
def endToken (before : Option Token) : Token :=
  let start := match before with
    | some token => if token.text = "" then Position.first else token.start
    | none => Position.first
  ⟨endOfText, "", start, start⟩

/-- Give tokens to the grammar one after the other. What to do when one is refused, and what when
all are through, is given. -/
def giveAll (t : Table) (refuse : Token → Stack → Attempt) (done : Stack → Attempt) :
    List Token → Stack → Attempt
  | [], stack => done stack
  | token :: tokens, stack =>
    match offer t token stack with
    | .shifted stack => giveAll t refuse done tokens stack
    | .refused stack => refuse token stack
    | .accepted tree => .parsed tree

/-- End the text. A fault here cannot be passed. -/
def conclude (t : Table) (before : Option Token) (stack : Stack) : Attempt :=
  let token := endToken before
  match offer t token stack with
  | .accepted tree => .parsed tree
  | .shifted stack | .refused stack =>
    let fault := Fault.ofToken token (t.expected (Stack.state stack))
    .paused fault fun _ => .broken fault

def finish (t : Table) (stack : Stack) (last : Option Token) (layout : Layout) : Attempt :=
  let closing := layout.closing
  giveAll t
    (fun token stack =>
      .paused (.ofToken token (t.expected (Stack.state stack))) fun _ => conclude t last stack)
    (conclude t (closing.getLast?.or (layout.passed.or last)))
    closing stack

/-- Parse from a place in the text. `last` is the last token that was read before it. -/
def run (t : Table) (stack : Stack) (position : Position) (ahead : List Char)
    (last : Option Token) (layout : Layout) : Attempt :=
  match _scan : (t.scanner (Stack.state stack)).next? ahead with
  | some lexeme =>
    let stop := position.after lexeme.chars
    if t.ignored.contains lexeme.kind then run t stack stop lexeme.rest last layout
    else
      let token : Token := ⟨lexeme.kind, String.ofList lexeme.chars, position, stop⟩
      if layout.drops token.kind then
        run t stack stop lexeme.rest (some token) { layout with read := some token }
      else
        let refuse (token' : Token) (stack : Stack) : Attempt :=
          .paused (.ofToken token' (t.expected (Stack.state stack))) fun _ =>
            run t stack stop lexeme.rest (some token) .fresh
        match offer t token stack with
        | .accepted tree => .parsed tree
        | .refused stack => refuse token stack
        | .shifted stack =>
          match layout.after token with
          | .error fault => .broken fault
          | .ok step =>
            giveAll t refuse
              (fun stack =>
                match step.fault with
                | some fault => .broken fault
                | none =>
                  let passed := step.tokens.getLast?.or step.layout.passed
                  run t stack stop lexeme.rest (some token) { step.layout with passed := passed })
              step.tokens stack
  | none =>
    match ahead with
    | [] => finish t stack last layout
    | c :: rest =>
      match _scanAny : t.anyScanner.next? (c :: rest) with
      | some lexeme =>
        let stop := position.after lexeme.chars
        let token : Token := ⟨lexeme.kind, String.ofList lexeme.chars, position, stop⟩
        .paused (.ofToken token (t.scannedFor (Stack.state stack))) fun _ =>
          run t stack stop lexeme.rest (some token) .fresh
      | none =>
        .paused (.unexpectedCharacter c (.ofPosition position)) fun _ =>
          run t stack (position.advance c) rest last .fresh
termination_by ahead.length
decreasing_by
  all_goals first
    | exact Scanner.rest_length_lt _scan
    | exact Scanner.rest_length_lt _scanAny
    | simp

def attempt (t : Table) (text : String) : Attempt :=
  run t [] .first text.toList none .fresh

end SyntaxSurvey.Parser
