import SyntaxSurvey.Parser.Attempt

/-! Runs of the parser, move by move. A standing is all that a run depends on. From a standing the
parser moves on as long as there is no fault, and each move shortens the text that is ahead. What
happens where no further move is possible is told by one relation, so that nothing about runs has
to unfold the parser again. -/

namespace SyntaxSurvey.Parser

open Grammar

/-- The tokens are put on top of the stack one after the other, and none is refused. -/
inductive Given (t : Table) : List Token → Stack → Stack → Prop where
  | nil (stack : Stack) : Given t [] stack stack
  | cons {token : Token} {tokens : List Token} {stack middle top : Stack}
      (first : offer t token stack = .shifted middle) (rest : Given t tokens middle top) :
      Given t (token :: tokens) stack top

/-- One of the tokens is refused, after those before it were put on top of the stack. What was
completed before it showed that it may not come stays so. -/
inductive Stuck (t : Table) : List Token → Stack → Token → Stack → Prop where
  | here {token : Token} {tokens : List Token} {stack top : Stack}
      (refused : offer t token stack = .refused top) : Stuck t (token :: tokens) stack token top
  | later {token other : Token} {tokens : List Token} {stack middle top : Stack}
      (first : offer t token stack = .shifted middle) (rest : Stuck t tokens middle other top) :
      Stuck t (token :: tokens) stack other top

/-- One of the tokens ends the text with a tree, after those before it were put on top of the
stack. -/
inductive Accepted (t : Table) : List Token → Stack → Tree → Prop where
  | here {token : Token} {tokens : List Token} {stack : Stack} {tree : Tree}
      (accepted : offer t token stack = .accepted tree) : Accepted t (token :: tokens) stack tree
  | later {token : Token} {tokens : List Token} {stack middle : Stack} {tree : Tree}
      (first : offer t token stack = .shifted middle) (rest : Accepted t tokens middle tree) :
      Accepted t (token :: tokens) stack tree

theorem Stuck.mem {t : Table} {tokens : List Token} {token : Token} {stack top : Stack}
    (stuck : Stuck t tokens stack token top) : token ∈ tokens := by
  induction stuck with
  | here refused => exact List.mem_cons_self ..
  | later first rest ih => exact List.mem_cons_of_mem _ ih

/-- Giving tokens to the grammar goes on as for all of them, or stops at the first one that is
refused or that ends the text. -/
theorem giveAll_cases (t : Table) (refuse : Token → Stack → Attempt) (done : Stack → Attempt)
    (tokens : List Token) (stack : Stack) :
    (∃ top, Given t tokens stack top ∧ giveAll t refuse done tokens stack = done top) ∨
    (∃ token top, Stuck t tokens stack token top ∧
      giveAll t refuse done tokens stack = refuse token top) ∨
    ∃ tree, Accepted t tokens stack tree ∧ giveAll t refuse done tokens stack = .parsed tree := by
  induction tokens generalizing stack with
  | nil => exact .inl ⟨stack, .nil stack, rfl⟩
  | cons token tokens ih =>
      cases hOffer : offer t token stack with
      | shifted middle =>
          have hUnfold : giveAll t refuse done (token :: tokens) stack =
              giveAll t refuse done tokens middle := by
            rw [giveAll, hOffer]
          rw [hUnfold]
          rcases ih middle with ⟨top, hGiven, hDone⟩ | ⟨other, top, hStuck, hRefuse⟩ |
            ⟨tree, hAccepted, hParsed⟩
          · exact .inl ⟨top, .cons hOffer hGiven, hDone⟩
          · exact .inr (.inl ⟨other, top, .later hOffer hStuck, hRefuse⟩)
          · exact .inr (.inr ⟨tree, .later hOffer hAccepted, hParsed⟩)
      | refused top => exact .inr (.inl ⟨token, top, .here hOffer, by rw [giveAll, hOffer]⟩)
      | accepted tree => exact .inr (.inr ⟨tree, .here hOffer, by rw [giveAll, hOffer]⟩)

/-- Giving tokens that are all taken comes to what is done afterwards. -/
theorem Given.giveAll_eq {t : Table} {tokens : List Token} {stack top : Stack}
    (given : Given t tokens stack top) (refuse : Token → Stack → Attempt)
    (done : Stack → Attempt) : giveAll t refuse done tokens stack = done top := by
  induction given with
  | nil => rfl
  | cons first rest ih => rw [giveAll, first]; exact ih

/-- Giving tokens of which one is refused comes to what is done with that one. -/
theorem Stuck.giveAll_eq {t : Table} {tokens : List Token} {token : Token} {stack top : Stack}
    (stuck : Stuck t tokens stack token top) (refuse : Token → Stack → Attempt)
    (done : Stack → Attempt) : giveAll t refuse done tokens stack = refuse token top := by
  induction stuck with
  | here refused => rw [giveAll, refused]
  | later first rest ih => rw [giveAll, first]; exact ih

/-- All that a run of the parser depends on. -/
structure Standing where
  stack : Stack
  position : Position
  ahead : List Char
  last : Option Token
  layout : Layout

namespace Standing

def attempt (t : Table) (s : Standing) : Attempt :=
  run t s.stack s.position s.ahead s.last s.layout

def opening (text : String) : Standing :=
  ⟨[], .first, text.toList, none, .fresh⟩

/-- An attempt begins at the opening of the text. -/
@[simp]
theorem attempt_opening (t : Table) (text : String) :
    (opening text).attempt t = Parser.attempt t text := rfl

def scan (t : Table) (s : Standing) : Option Lexeme :=
  (t.scanner (Stack.state s.stack)).next? s.ahead

def token (s : Standing) (lexeme : Lexeme) : Token :=
  ⟨lexeme.kind, String.ofList lexeme.chars, s.position, s.position.after lexeme.chars⟩

/-- The standing after a lexeme, with the stack, the last token and the layout as given. -/
def past (s : Standing) (lexeme : Lexeme) (stack : Stack) (last : Option Token)
    (layout : Layout) : Standing :=
  ⟨stack, s.position.after lexeme.chars, lexeme.rest, last, layout⟩

/-- The scanner finds a lexeme that the grammar takes as a token. -/
structure Takes (t : Table) (s : Standing) (lexeme : Lexeme) (top : Stack) : Prop where
  scanned : s.scan t = some lexeme
  counts : t.ignored.contains lexeme.kind = false
  kept : s.layout.drops lexeme.kind = false
  shifted : offer t (s.token lexeme) s.stack = .shifted top

/-- One move of the parser without a fault, with the token that the grammar takes, if any. -/
inductive Move (t : Table) : Standing → List Token → Standing → Prop where
  | ignored {s : Standing} {lexeme : Lexeme} (scanned : s.scan t = some lexeme)
      (idle : t.ignored.contains lexeme.kind = true) :
      Move t s [] (s.past lexeme s.stack s.last s.layout)
  | dropped {s : Standing} {lexeme : Lexeme} (scanned : s.scan t = some lexeme)
      (counts : t.ignored.contains lexeme.kind = false)
      (drops : s.layout.drops lexeme.kind = true) :
      Move t s [] (s.past lexeme s.stack (some (s.token lexeme))
        { s.layout with read := some (s.token lexeme) })
  | taken {s : Standing} {lexeme : Lexeme} {middle top : Stack} {step : Layout.Step}
      (takes : s.Takes t lexeme middle)
      (laidOut : s.layout.after (s.token lexeme) = .ok step)
      (given : Given t step.tokens middle top) (aligned : step.fault = none) :
      Move t s [s.token lexeme] (s.past lexeme top (some (s.token lexeme))
        { step.layout with passed := step.tokens.getLast?.or step.layout.passed })

/-- A fault at which the parser pauses, and the standing from which it goes on after it: past the
character, or past what was scanned last, with a new layout. -/
inductive Pause (t : Table) (s : Standing) : Fault → Standing → Prop where
  | character {c : Char} {rest : List Char} (ahead : s.ahead = c :: rest)
      (unscanned : s.scan t = none) (unknown : t.anyScanner.next? s.ahead = none) :
      Pause t s (.unexpectedCharacter c (.ofPosition s.position))
        ⟨s.stack, s.position.advance c, rest, s.last, .fresh⟩
  | foreign {lexeme : Lexeme} (unscanned : s.scan t = none)
      (known : t.anyScanner.next? s.ahead = some lexeme) :
      Pause t s (.ofToken (s.token lexeme) (t.scannedFor (Stack.state s.stack)))
        (s.past lexeme s.stack (some (s.token lexeme)) .fresh)
  | refused {lexeme : Lexeme} {top : Stack} (scanned : s.scan t = some lexeme)
      (counts : t.ignored.contains lexeme.kind = false)
      (kept : s.layout.drops lexeme.kind = false)
      (refused : offer t (s.token lexeme) s.stack = .refused top) :
      Pause t s (.ofToken (s.token lexeme) (t.expected (Stack.state top)))
        (s.past lexeme top (some (s.token lexeme)) .fresh)
  | laidOut {lexeme : Lexeme} {middle top : Stack} {step : Layout.Step} {token : Token}
      (takes : s.Takes t lexeme middle)
      (laidOut : s.layout.after (s.token lexeme) = .ok step)
      (stuck : Stuck t step.tokens middle token top) :
      Pause t s (.ofToken token (t.expected (Stack.state top)))
        (s.past lexeme top (some (s.token lexeme)) .fresh)
  | closing {token : Token} {top : Stack} (noText : s.ahead = [])
      (stuck : Stuck t s.layout.closing s.stack token top) :
      Pause t s (.ofToken token (t.expected (Stack.state top)))
        ⟨top, s.position, [], s.last, .fresh⟩

/-- A token ends the text with a tree: one that was scanned, or one that the layout puts in after a
line or at the end. -/
inductive Accepts (t : Table) (s : Standing) : Tree → Prop where
  | scanned {lexeme : Lexeme} {tree : Tree} (scanned : s.scan t = some lexeme)
      (accepted : offer t (s.token lexeme) s.stack = .accepted tree) : Accepts t s tree
  | laidOut {lexeme : Lexeme} {middle : Stack} {step : Layout.Step} {tree : Tree}
      (takes : s.Takes t lexeme middle) (laidOut : s.layout.after (s.token lexeme) = .ok step)
      (accepted : Accepted t step.tokens middle tree) : Accepts t s tree
  | closing {tree : Tree} (accepted : Accepted t s.layout.closing s.stack tree) : Accepts t s tree

/-- What an attempt is that has no further move. -/
inductive Stop (t : Table) (s : Standing) : Attempt → Prop where
  | accepted {tree : Tree} (accepts : s.Accepts t tree) : Stop t s (.parsed tree)
  | paused {fault : Fault} {next : Standing} (pause : Pause t s fault next) :
      Stop t s (.paused fault fun _ => next.attempt t)
  | unlaid {lexeme : Lexeme} {top : Stack} {fault : Fault} (takes : s.Takes t lexeme top)
      (noLayout : s.layout.after (s.token lexeme) = .error fault) : Stop t s (.broken fault)
  | misaligned {lexeme : Lexeme} {middle top : Stack} {step : Layout.Step} {fault : Fault}
      (takes : s.Takes t lexeme middle)
      (laidOut : s.layout.after (s.token lexeme) = .ok step)
      (given : Given t step.tokens middle top)
      (astray : step.fault = some fault) : Stop t s (.broken fault)
  | ended {top : Stack} (noText : s.ahead = [])
      (given : Given t s.layout.closing s.stack top) :
      Stop t s (conclude t (s.layout.closing.getLast?.or (s.layout.passed.or s.last)) top)

variable {t : Table} {s : Standing} {lexeme : Lexeme}

theorem rest_suffix (scanned : s.scan t = some lexeme) : lexeme.rest <:+ s.ahead :=
  ⟨lexeme.chars, Scanner.chars_append_rest scanned⟩

/-- What was scanned is no longer ahead. -/
theorem rest_shorter (scanned : s.scan t = some lexeme) :
    lexeme.rest.length < s.ahead.length :=
  Scanner.rest_length_lt scanned

/-- A lexeme that is ignored is passed by. -/
theorem attempt_of_ignored (scanned : s.scan t = some lexeme)
    (idle : t.ignored.contains lexeme.kind = true) :
    s.attempt t = (s.past lexeme s.stack s.last s.layout).attempt t := by
  unfold attempt
  rw [run]
  split
  · rename_i found hFound
    obtain rfl : found = lexeme := Option.some.inj (hFound.symm.trans scanned)
    simp only [idle, ↓reduceIte]
    rfl
  · rename_i hNone
    exact absurd (hNone.symm.trans scanned) (by simp)

/-- A lexeme that is dropped for layout is passed by, and remembered. -/
theorem attempt_of_dropped (scanned : s.scan t = some lexeme)
    (counts : t.ignored.contains lexeme.kind = false)
    (drops : s.layout.drops lexeme.kind = true) :
    s.attempt t = (s.past lexeme s.stack (some (s.token lexeme))
      { s.layout with read := some (s.token lexeme) }).attempt t := by
  unfold attempt
  rw [run]
  split
  · rename_i found hFound
    obtain rfl : found = lexeme := Option.some.inj (hFound.symm.trans scanned)
    simp only [counts, drops, Bool.false_eq_true, ↓reduceIte]
    rfl
  · rename_i hNone
    exact absurd (hNone.symm.trans scanned) (by simp)

/-- What happens to a token of the text, given what the layout says after it. -/
theorem attempt_of_counts (scanned : s.scan t = some lexeme)
    (counts : t.ignored.contains lexeme.kind = false)
    (kept : s.layout.drops lexeme.kind = false) :
    let refuse (token : Token) (top : Stack) : Attempt :=
      .paused (.ofToken token (t.expected (Stack.state top))) fun _ =>
        (s.past lexeme top (some (s.token lexeme)) .fresh).attempt t
    s.attempt t = match offer t (s.token lexeme) s.stack with
      | .accepted tree => .parsed tree
      | .refused top => refuse (s.token lexeme) top
      | .shifted top =>
        match s.layout.after (s.token lexeme) with
        | .error fault => .broken fault
        | .ok step =>
          giveAll t refuse
            (fun top =>
              match step.fault with
              | some fault => .broken fault
              | none => (s.past lexeme top (some (s.token lexeme))
                  { step.layout with
                    passed := step.tokens.getLast?.or step.layout.passed }).attempt t)
            step.tokens top := by
  intro refuse
  unfold attempt
  rw [run]
  split
  · rename_i found hFound
    obtain rfl : found = lexeme := Option.some.inj (hFound.symm.trans scanned)
    simp only [counts, kept, Bool.false_eq_true, ↓reduceIte]
    rfl
  · rename_i hNone
    exact absurd (hNone.symm.trans scanned) (by simp)

/-- At the end of the text no scanner finds anything. -/
theorem attempt_nil (t : Table) (stack : Stack) (position : Position) (last : Option Token)
    (layout : Layout) :
    attempt t ⟨stack, position, [], last, layout⟩ = finish t stack last layout := by
  unfold attempt
  rw [run]
  split
  · rename_i found hFound
    have hLess := Scanner.rest_length_lt hFound
    simp at hLess
  · rfl

/-- With a new layout there is nothing to close, and the text is at its end. -/
theorem attempt_nil_fresh (t : Table) (stack : Stack) (position : Position)
    (last : Option Token) :
    attempt t ⟨stack, position, [], last, .fresh⟩ = conclude t last stack := by
  rw [attempt_nil]
  rfl

/-- Where nothing is ahead, the attempt comes to its end. -/
theorem stop_of_nil (noText : s.ahead = []) : Stop t s (s.attempt t) := by
  obtain ⟨stack, position, ahead, last, layout⟩ := s
  obtain rfl : ahead = [] := noText
  rw [attempt_nil]
  unfold finish
  dsimp only
  rcases giveAll_cases t _ _ layout.closing stack with
    ⟨top, hGiven, hDone⟩ | ⟨token, top, hStuck, hRefuse⟩ | ⟨tree, hAccepted, hParsed⟩
  · rw [hDone]
    have hEnd : Standing.ahead ⟨stack, position, [], last, layout⟩ = [] := rfl
    exact .ended hEnd hGiven
  · rw [hRefuse]
    simp only [← attempt_nil_fresh t _ position]
    exact .paused (.closing rfl hStuck)
  · rw [hParsed]
    exact .accepted (.closing hAccepted)

/-- Where no terminal of the state matches, a lexeme of another terminal is dropped, or else one
character is. -/
theorem attempt_of_unscanned {c : Char} {rest : List Char} (unscanned : s.scan t = none)
    (ahead : s.ahead = c :: rest) :
    s.attempt t = match t.anyScanner.next? s.ahead with
      | some found =>
        .paused (.ofToken (s.token found) (t.scannedFor (Stack.state s.stack))) fun _ =>
          (s.past found s.stack (some (s.token found)) .fresh).attempt t
      | none =>
        .paused (.unexpectedCharacter c (.ofPosition s.position)) fun _ =>
          attempt t ⟨s.stack, s.position.advance c, rest, s.last, .fresh⟩ := by
  obtain ⟨stack, position, _, last, layout⟩ := s
  obtain rfl := ahead
  unfold attempt
  rw [run]
  split
  · rename_i found hFound
    exact absurd (hFound.symm.trans unscanned) (by simp)
  · dsimp only
    split
    · rename_i found hFound
      rw [hFound]
      rfl
    · rename_i hNone
      rw [hNone]

/-- Where nothing can be scanned, the attempt stops. -/
theorem stop_of_unscanned (unscanned : s.scan t = none) : Stop t s (s.attempt t) := by
  cases hAhead : s.ahead with
  | nil => exact stop_of_nil hAhead
  | cons c rest =>
      rw [attempt_of_unscanned unscanned hAhead]
      cases hAny : t.anyScanner.next? s.ahead with
      | some found => exact .paused (.foreign unscanned hAny)
      | none => exact .paused (.character hAhead unscanned hAny)

/-- The parser moves on or stops, and nothing else. -/
theorem attempt_cases (t : Table) (s : Standing) :
    (∃ tokens next, Move t s tokens next ∧ s.attempt t = next.attempt t) ∨
      Stop t s (s.attempt t) := by
  cases hScan : s.scan t with
  | none => exact .inr (stop_of_unscanned hScan)
  | some lexeme =>
      cases hIdle : t.ignored.contains lexeme.kind with
      | true => exact .inl ⟨_, _, .ignored hScan hIdle, attempt_of_ignored hScan hIdle⟩
      | false =>
          cases hDrops : s.layout.drops lexeme.kind with
          | true =>
              exact .inl ⟨_, _, .dropped hScan hIdle hDrops,
                attempt_of_dropped hScan hIdle hDrops⟩
          | false =>
              rw [attempt_of_counts hScan hIdle hDrops]
              cases hOffer : offer t (s.token lexeme) s.stack with
              | accepted tree => exact .inr (.accepted (.scanned hScan hOffer))
              | refused top => exact .inr (.paused (.refused hScan hIdle hDrops hOffer))
              | shifted middle =>
                  have takes : s.Takes t lexeme middle := ⟨hScan, hIdle, hDrops, hOffer⟩
                  cases hAfter : s.layout.after (s.token lexeme) with
                  | error fault => exact .inr (.unlaid takes hAfter)
                  | ok step =>
                      dsimp only
                      rcases giveAll_cases t _ _ step.tokens middle with
                        ⟨top, hGiven, hDone⟩ | ⟨token, top, hStuck, hRefuse⟩ |
                        ⟨tree, hAccepted, hParsed⟩
                      · rw [hDone]
                        cases hFault : step.fault with
                        | none =>
                            exact .inl ⟨_, _, .taken takes hAfter hGiven hFault, rfl⟩
                        | some fault => exact .inr (.misaligned takes hAfter hGiven hFault)
                      · rw [hRefuse]
                        exact .inr (.paused (.laidOut takes hAfter hStuck))
                      · rw [hParsed]
                        exact .inr (.accepted (.laidOut takes hAfter hAccepted))

/-- An attempt is the attempt after its first move. -/
theorem Move.attempt_eq {tokens : List Token} {next : Standing} (move : Move t s tokens next) :
    s.attempt t = next.attempt t := by
  cases move with
  | ignored scanned idle => exact attempt_of_ignored scanned idle
  | dropped scanned counts drops => exact attempt_of_dropped scanned counts drops
  | taken takes laidOut given aligned =>
      rw [attempt_of_counts takes.scanned takes.counts takes.kept, takes.shifted]
      dsimp only
      rw [laidOut]
      dsimp only
      rw [given.giveAll_eq, aligned]

/-- At a pause an attempt asks about a fault, and it may be resumed from the standing after it. -/
theorem Pause.attempt_eq {fault : Fault} {next : Standing} (pause : Pause t s fault next) :
    s.attempt t = .paused fault fun _ => next.attempt t := by
  cases pause with
  | character ahead unscanned unknown => rw [attempt_of_unscanned unscanned ahead, unknown]
  | @foreign lexeme unscanned known =>
      cases hAhead : s.ahead with
      | nil =>
          have hLess := Scanner.rest_length_lt known
          simp [hAhead] at hLess
      | cons c rest => rw [attempt_of_unscanned unscanned hAhead, known]
  | refused scanned counts kept refused =>
      rw [attempt_of_counts scanned counts kept, refused]
  | laidOut takes laidOut stuck =>
      rw [attempt_of_counts takes.scanned takes.counts takes.kept, takes.shifted]
      dsimp only
      rw [laidOut]
      dsimp only
      rw [stuck.giveAll_eq]
  | closing noText stuck =>
      obtain ⟨stack, position, _, last, layout⟩ := s
      obtain rfl := noText
      rw [attempt_nil, finish]
      dsimp only
      rw [stuck.giveAll_eq]
      simp only [attempt_nil_fresh]

/-- Every move leaves less text ahead. -/
theorem Move.shorter {tokens : List Token} {next : Standing} (move : Move t s tokens next) :
    next.ahead <:+ s.ahead ∧ next.ahead.length < s.ahead.length := by
  cases move with
  | ignored scanned idle => exact ⟨rest_suffix scanned, rest_shorter scanned⟩
  | dropped scanned counts drops => exact ⟨rest_suffix scanned, rest_shorter scanned⟩
  | taken takes laidOut given aligned =>
      exact ⟨rest_suffix takes.scanned, rest_shorter takes.scanned⟩

/-- Moves one after the other, with the tokens that the grammar takes on the way. -/
inductive Course (t : Table) : Standing → List Token → Standing → Prop where
  | refl (s : Standing) : Course t s [] s
  | step {s middle next : Standing} {tokens more : List Token} (prior : Course t s tokens middle)
      (last : Move t middle more next) : Course t s (tokens ++ more) next

theorem Course.head {tokens more : List Token} {middle next : Standing}
    (first : Move t s tokens middle) (rest : Course t middle more next) :
    Course t s (tokens ++ more) next := by
  induction rest with
  | refl =>
      rw [List.append_nil]
      exact .step (.refl s) first
  | step prior last ih =>
      rw [← List.append_assoc]
      exact .step ih last

/-- An attempt is the same after any number of moves. -/
theorem Course.attempt_eq {tokens : List Token} {next : Standing}
    (course : Course t s tokens next) :
    s.attempt t = next.attempt t := by
  induction course with
  | refl => rfl
  | step prior last ih => rw [ih, last.attempt_eq]

/-- What is ahead after some moves is ahead before them. It is less, unless nothing moved. -/
theorem Course.shorter {tokens : List Token} {next : Standing} (course : Course t s tokens next) :
    next.ahead <:+ s.ahead ∧ (next = s ∨ next.ahead.length < s.ahead.length) := by
  induction course with
  | refl => exact ⟨List.suffix_refl _, .inl rfl⟩
  | step prior last ih =>
      obtain ⟨hSuffix, hEnd⟩ := ih
      obtain ⟨hNext, hLess⟩ := last.shorter
      refine ⟨hNext.trans hSuffix, .inr ?_⟩
      have hLength := hSuffix.length_le
      omega

/-- After a pause nothing is known of indentation. -/
theorem Pause.anew {fault : Fault} {next : Standing} (pause : Pause t s fault next) :
    next.layout = .fresh := by
  cases pause <;> rfl

/-- From every standing the parser moves on to one at which it stops. -/
theorem exists_course (t : Table) (s : Standing) :
    ∃ tokens next, Course t s tokens next ∧ Stop t next (s.attempt t) := by
  induction hLength : s.ahead.length using Nat.strongRecOn generalizing s with
  | ind length ih =>
      rcases attempt_cases t s with ⟨tokens, next, hMove, hSame⟩ | hStop
      · obtain ⟨_, hLess⟩ := hMove.shorter
        obtain ⟨more, final, hCourse, hStop⟩ := ih _ (hLength ▸ hLess) next rfl
        exact ⟨_, _, hCourse.head hMove, hSame ▸ hStop⟩
      · exact ⟨[], s, .refl s, hStop⟩

end Standing

end SyntaxSurvey.Parser
