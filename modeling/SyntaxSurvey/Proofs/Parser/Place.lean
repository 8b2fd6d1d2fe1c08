import SyntaxSurvey.Proofs.Parser.Recovery
import SyntaxSurvey.Proofs.Position

/-! Places that faults tell of. Parsing always stands at a place of the text, and every token that it
remembers starts at one. Tokens without a text of their own borrow the place of a token that was
read, so they have a place of the text as well. -/

namespace SyntaxSurvey

/-- A place of a text. -/
def Position.IsIn (p : Position) (cs : List Char) : Prop :=
  ∃ offset ≤ cs.length, p = .ofOffset cs offset

theorem Position.first_isIn (cs : List Char) : first.IsIn cs :=
  ⟨0, Nat.zero_le _, rfl⟩

namespace Parser

open Grammar

/-- The end of the text has the place of the token before it, if that is one of the text. -/
theorem endToken_isIn {cs : List Char} {before : Option Token}
    (h : ∀ token, before = some token → token.start.IsIn cs) : (endToken before).start.IsIn cs := by
  cases before with
  | none => exact Position.first_isIn cs
  | some token =>
      simp only [endToken]
      split
      · exact Position.first_isIn cs
      · exact h token rfl

/-- A fault of the end of the text has the place of its token. -/
theorem mem_faults_conclude {t : Table} {before : Option Token} {stack : Stack} {fault : Fault}
    (mem : fault ∈ (conclude t before stack).faults) :
    ∃ expected, fault = .ofToken (endToken before) expected := by
  have hEnd (expected : List String) :
      (Fault.ofToken (endToken before) expected).isAtEnd = true := rfl
  unfold conclude at mem
  dsimp only at mem
  split at mem
  · simp [Attempt.faults] at mem
  · rw [Attempt.faults, if_pos (hEnd _)] at mem
    exact ⟨_, List.mem_singleton.mp mem⟩
  · rw [Attempt.faults, if_pos (hEnd _)] at mem
    exact ⟨_, List.mem_singleton.mp mem⟩

namespace Standing

variable {t : Table} {s next : Standing} {cs : List Char} {text : String} {offset count : Nat}
  {fault : Fault}

/-- Parsing stands at an offset of a text: what is ahead is the rest of the text, and the position is
that of the offset. -/
structure StandsAt (s : Standing) (cs : List Char) (offset : Nat) : Prop where
  le : offset ≤ cs.length
  ahead : s.ahead = cs.drop offset
  position : s.position = .ofOffset cs offset

theorem standsAt_opening (text : String) : (opening text).StandsAt text.toList 0 :=
  ⟨Nat.zero_le _, rfl, rfl⟩

/-- Whatever passes over some characters stands at the offset behind them. -/
theorem StandsAt.over (h : s.StandsAt cs offset) {chars : List Char}
    (whole : chars ++ next.ahead = s.ahead) (place : next.position = s.position.after chars) :
    next.StandsAt cs (offset + chars.length) := by
  have hDrop : cs.drop offset = chars ++ next.ahead := h.ahead.symm.trans whole.symm
  have hLength := congrArg List.length hDrop
  rw [List.length_drop, List.length_append] at hLength
  refine ⟨?_, ?_, ?_⟩
  · have hLe := h.le
    omega
  · rw [← List.drop_drop, hDrop, List.drop_left]
  · rw [Position.ofOffset_add, hDrop, List.take_left, place, h.position]

/-- After a lexeme the parser stands behind its characters. -/
theorem StandsAt.past (h : s.StandsAt cs offset) {lexeme : Lexeme}
    (whole : lexeme.chars ++ lexeme.rest = s.ahead) (stack : Stack) (last : Option Token)
    (layout : Layout) :
    (s.past lexeme stack last layout).StandsAt cs (offset + lexeme.chars.length) :=
  h.over whole rfl

/-- All places that a standing knows of are places of the text. -/
structure Within (s : Standing) (cs : List Char) : Prop where
  stands : ∃ offset, s.StandsAt cs offset
  last : ∀ token, s.last = some token → token.start.IsIn cs
  read : ∀ token, s.layout.read = some token → token.start.IsIn cs
  passed : ∀ token, s.layout.passed = some token → token.start.IsIn cs
  /-- Whatever is indented was read. -/
  opened : s.layout.indents ≠ [] → ∃ token, s.layout.read = some token

theorem within_opening (text : String) : (opening text).Within text.toList :=
  ⟨⟨0, standsAt_opening text⟩, nofun, nofun, nofun, fun h => absurd rfl h⟩

theorem Within.position (h : s.Within cs) : s.position.IsIn cs := by
  obtain ⟨offset, hStands⟩ := h.stands
  exact ⟨offset, hStands.le, hStands.position⟩

/-- A token that was just scanned has the place where parsing stands. -/
theorem Within.token (h : s.Within cs) (lexeme : Lexeme) : (s.token lexeme).start.IsIn cs :=
  h.position

/-- After a fault only the last token is remembered. -/
theorem Within.anew (h : s.Within cs) {stack : Stack} {position : Position} {ahead : List Char}
    {last : Option Token} (stands : ∃ offset, StandsAt ⟨stack, position, ahead, last, .fresh⟩ cs offset)
    (known : last = s.last ∨ ∃ lexeme, last = some (s.token lexeme)) :
    Within ⟨stack, position, ahead, last, .fresh⟩ cs := by
  refine ⟨stands, fun token hToken => ?_, nofun, nofun, fun hNone => absurd rfl hNone⟩
  rcases known with rfl | ⟨lexeme, rfl⟩
  · exact h.last token hToken
  · obtain rfl := Option.some.inj hToken
    exact h.token lexeme

/-- A move keeps the parser and its tokens within the text. -/
theorem Move.within {tokens : List Token} (move : Move t s tokens next) (h : s.Within cs) :
    next.Within cs := by
  obtain ⟨offset, hStands⟩ := h.stands
  cases move with
  | @ignored lexeme scanned idle =>
      exact ⟨⟨_, hStands.past (Scanner.chars_append_rest scanned) _ _ _⟩, h.last, h.read, h.passed,
        h.opened⟩
  | @dropped lexeme scanned counts drops =>
      have hToken : ∀ token, some (s.token lexeme) = some token → token.start.IsIn cs :=
        fun token hSame => Option.some.inj hSame ▸ h.token lexeme
      exact ⟨⟨_, hStands.past (Scanner.chars_append_rest scanned) _ _ _⟩, hToken, hToken, h.passed,
        fun _ => ⟨_, rfl⟩⟩
  | @taken lexeme middle top step takes laidOut given aligned =>
      have hToken : ∀ token, some (s.token lexeme) = some token → token.start.IsIn cs :=
        fun token hSame => Option.some.inj hSame ▸ h.token lexeme
      obtain ⟨hRead, hPassed, hAdded⟩ := Layout.after_tokens laidOut
      refine ⟨⟨_, hStands.past (Scanner.chars_append_rest takes.scanned) _ _ _⟩, hToken, ?_, ?_,
        fun _ => ⟨_, hRead⟩⟩
      · intro token hSame
        exact hToken token (hRead.symm.trans hSame)
      · intro token hSame
        rcases Option.or_eq_some_iff.mp hSame with hLast | ⟨-, hKept⟩
        · obtain ⟨kind, text, -, rfl⟩ := hAdded token (List.mem_of_getLast? hLast)
          exact h.token lexeme
        · exact hToken token (hPassed.symm.trans hKept)

theorem Course.within {tokens : List Token} (course : Course t s tokens next) (h : s.Within cs) :
    next.Within cs := by
  induction course with
  | refl => exact h
  | step prior last ih => exact last.within ih

/-- A token that the layout puts in has a place of the text. -/
theorem Within.laidOut (h : s.Within cs) {lexeme : Lexeme} {step : Layout.Step} {token : Token}
    (laidOut : s.layout.after (s.token lexeme) = .ok step) (mem : token ∈ step.tokens) :
    token.start.IsIn cs := by
  obtain ⟨kind, text, -, rfl⟩ := (Layout.after_tokens laidOut).2.2 token mem
  exact h.token lexeme

/-- Tokens that close a text are placed in it. -/
theorem Within.closing (h : s.Within cs) {token : Token} (mem : token ∈ s.layout.closing) :
    token.start.IsIn cs := by
  obtain ⟨hOpen, origin, rfl, hOrigin⟩ := Layout.mem_closing mem
  obtain ⟨read, hRead⟩ := h.opened hOpen
  rw [hOrigin read hRead]
  exact h.read read hRead

/-- A fault that tells of a place of the text. -/
def PlacedIn (cs : List Char) (fault : Fault) : Prop :=
  ∃ place : Position, place.IsIn cs ∧ fault.spot = .ofPosition place

theorem placedIn_ofToken {token : Token} (h : token.start.IsIn cs) (expected : List String) :
    PlacedIn cs (.ofToken token expected) :=
  ⟨token.start, h, rfl⟩

/-- Wherever parsing pauses, the fault tells of a place of the text. -/
theorem Pause.placedIn (pause : Pause t s fault next) (h : s.Within cs) : PlacedIn cs fault := by
  cases pause with
  | character ahead unscanned unknown => exact ⟨s.position, h.position, rfl⟩
  | foreign unscanned known => exact placedIn_ofToken (h.token _) _
  | refused scanned counts kept refused => exact placedIn_ofToken (h.token _) _
  | laidOut takes laidOut stuck => exact placedIn_ofToken (h.laidOut laidOut stuck.mem) _
  | closing noText stuck => exact placedIn_ofToken (h.closing stuck.mem) _

/-- A pause keeps the parser and its tokens within the text. -/
theorem Pause.within (pause : Pause t s fault next) (h : s.Within cs) : next.Within cs := by
  obtain ⟨offset, hStands⟩ := h.stands
  cases pause with
  | @character c rest ahead unscanned unknown =>
      have hWhole : [c] ++ rest = s.ahead := ahead.symm
      exact h.anew ⟨_, hStands.over hWhole rfl⟩ (.inl rfl)
  | foreign unscanned known =>
      exact h.anew ⟨_, hStands.past (Scanner.chars_append_rest known) _ _ _⟩ (.inr ⟨_, rfl⟩)
  | refused scanned counts kept refused =>
      exact h.anew ⟨_, hStands.past (Scanner.chars_append_rest scanned) _ _ _⟩ (.inr ⟨_, rfl⟩)
  | laidOut takes laidOut stuck =>
      exact h.anew ⟨_, hStands.past (Scanner.chars_append_rest takes.scanned) _ _ _⟩
        (.inr ⟨_, rfl⟩)
  | closing noText stuck =>
      have hWhole : [] ++ [] = s.ahead := noText.symm
      exact h.anew ⟨_, hStands.over hWhole rfl⟩ (.inl rfl)

/-- Wherever the parser resumes, it is within the text. -/
theorem ResumesAt.within (resumes : ResumesAt t text count s) : s.Within text.toList := by
  induction resumes with
  | opening => exact within_opening text
  | again prior course pause inside ih => exact pause.within (course.within ih)

/-- Every fault that is recorded tells of a place of the text or is a line that is astray. The
induction is on the faults, each of which arises on a course from where parsing went on last. -/
theorem placedIn_of_mem_faults (resumes : ResumesAt t text count s)
    (mem : fault ∈ (s.attempt t).faults) :
    (∃ message, fault = .misalignedLine message) ∨ PlacedIn text.toList fault := by
  induction count, s, resumes using ResumesAt.induction with
  | step count s resumes ih =>
      obtain ⟨tokens, final, hCourse, hStop⟩ := exists_course t s
      have hFinal := hCourse.within resumes.within
      generalize hAttempt : s.attempt t = a at hStop mem
      cases hStop with
      | accepted accepts => simp [Attempt.faults] at mem
      | @paused other next pause =>
          have hPlaced : PlacedIn text.toList other := pause.placedIn hFinal
          rw [Attempt.faults] at mem
          split at mem
          · exact .inr (List.mem_singleton.mp mem ▸ hPlaced)
          · rename_i hInside
            rcases List.mem_cons.mp mem with rfl | hLater
            · exact .inr hPlaced
            · exact ih tokens final other next hCourse pause (by simpa using hInside) hLater
      | unlaid takes noLayout =>
          rcases Layout.after_eq_error_iff.mp noLayout with ⟨-, -, rfl⟩ | ⟨-, -, rfl⟩ <;>
            simp [Attempt.faults, Fault.isSyntactic] at mem
      | misaligned takes laidOut given astray =>
          obtain ⟨message, rfl⟩ := Layout.after_fault laidOut astray
          obtain rfl : fault = .misalignedLine message := by
            simpa [Attempt.faults, Fault.isSyntactic] using mem
          exact .inl ⟨message, rfl⟩
      | ended noText given =>
          obtain ⟨expected, rfl⟩ := mem_faults_conclude mem
          refine .inr (placedIn_ofToken (endToken_isIn fun token hToken => ?_) expected)
          rcases Option.or_eq_some_iff.mp hToken with hClosing | ⟨-, hOther⟩
          · exact hFinal.closing (List.mem_of_getLast? hClosing)
          · rcases Option.or_eq_some_iff.mp hOther with hPassed | ⟨-, hLast⟩
            · exact hFinal.passed token hPassed
            · exact hFinal.last token hLast

end Standing

end Parser

/-- Line and column of a diagnostic are those of a place of a text, counted as texts are read. Only a
line that is astray is reported without a place. -/
def Diagnostic.PointsInto (cs : List Char) (d : Diagnostic) : Prop :=
  d.kind = "DedentError" ∧ d.line = 0 ∧ d.column = 0
    ∨ ∃ offset start : Nat, offset ≤ cs.length ∧ Position.StartsLine cs start offset
      ∧ d.line = 1 + ((cs.take offset).count '\n' : Int) ∧ d.column = 1 + (offset : Int) - start

/-- The diagnostic of a fault that is placed in a text points into it. -/
theorem Diagnostic.pointsInto_of_placedIn {cs : List Char} {fault : Fault}
    (h : Parser.Standing.PlacedIn cs fault) : (ofFault fault).PointsInto cs := by
  obtain ⟨place, ⟨offset, hOffset, rfl⟩, hSpot⟩ := h
  obtain ⟨start, hStarts, hPlace⟩ := Position.exists_startsLine hOffset
  have hLe := hStarts.le
  refine .inr ⟨offset, start, hOffset, hStarts, ?_, ?_⟩
  · simp only [ofFault, new, hSpot, hPlace, Spot.ofPosition, Spot.natural]
    split <;> omega
  · simp only [ofFault, new, hSpot, hPlace, Spot.ofPosition, Spot.natural]
    split <;> omega

/-- Whatever is recorded of a text, before and after any number of faults and whatever the cap, points
into the text. What was recorded before stays as it is. This is so for every grammar. -/
theorem Collector.diagnostics_point_into_text (t : Grammar.Table) (text : String) (c : Collector) :
    ∃ recorded, (c.parse t text).2.diagnostics = c.diagnostics ++ recorded
      ∧ ∀ diagnostic ∈ recorded, diagnostic.PointsInto text.toList := by
  refine ⟨_, c.drive_diagnostics _, fun diagnostic hRecorded => ?_⟩
  obtain ⟨fault, hFault, rfl⟩ := List.mem_map.mp hRecorded
  have hMem := List.mem_of_mem_take hFault
  rcases Parser.Standing.placedIn_of_mem_faults .opening hMem with ⟨message, rfl⟩ | hPlaced
  · exact .inl ⟨rfl, rfl, rfl⟩
  · exact Diagnostic.pointsInto_of_placedIn hPlaced

end SyntaxSurvey
