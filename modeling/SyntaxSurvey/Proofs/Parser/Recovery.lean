import Mathlib.Algebra.BigOperators.Group.List.Basic
import SyntaxSurvey.Grammar.Python
import SyntaxSurvey.Proofs.Collector.Cap
import SyntaxSurvey.Proofs.Parser.Layout
import SyntaxSurvey.Proofs.Parser.Standing

/-! Going on after faults. Each fault but one of the end of the text has a piece of the text of its
own: what was skipped or scanned since parsing went on after the fault before. Parsing therefore
ends however often it is told to go on, and there are at most as many faults as characters, and one
more at the end. -/

namespace SyntaxSurvey.Parser

open Grammar

/-- What the end of the text comes to: a tree, or a fault that is the last one. -/
theorem conclude_cases (t : Table) (before : Option Token) (stack : Stack) :
    (∃ tree, conclude t before stack = .parsed tree) ∨
      ∃ fault, fault.isAtEnd = true ∧
        conclude t before stack = .paused fault fun _ => .broken fault := by
  unfold conclude
  dsimp only
  split
  · exact .inl ⟨_, rfl⟩
  · exact .inr ⟨_, rfl, rfl⟩
  · exact .inr ⟨_, rfl, rfl⟩

namespace Standing

variable {t : Table} {s : Standing} {text : String} {count : Nat}

/-- From a standing the parser moves on until a fault arises, and then it has passed over all but
the given rest of the text. A fault of the end of the text is none of these. -/
inductive Episode (t : Table) (s : Standing) : Fault → List Char → Prop where
  | paused {tokens : List Token} {final next : Standing} {fault : Fault}
      (course : Course t s tokens final) (pause : Pause t final fault next) :
      Episode t s fault next.ahead
  | misaligned {tokens : List Token} {final : Standing} {lexeme : Lexeme} {middle top : Stack}
      {step : Layout.Step} {fault : Fault} (course : Course t s tokens final)
      (takes : final.Takes t lexeme middle)
      (laidOut : final.layout.after (final.token lexeme) = .ok step)
      (given : Given t step.tokens middle top) (astray : step.fault = some fault) :
      Episode t s fault lexeme.rest

/-- Parsing of a text goes on from a standing after so many faults. -/
inductive ResumesAt (t : Table) (text : String) : Nat → Standing → Prop where
  | opening : ResumesAt t text 0 (opening text)
  | again {count : Nat} {s final next : Standing} {tokens : List Token} {fault : Fault}
      (prior : ResumesAt t text count s) (course : Course t s tokens final)
      (pause : Pause t final fault next) (inside : fault.isAtEnd = false) :
      ResumesAt t text (count + 1) next

/-- Wherever the parser resumes, it knows of no indentation. -/
theorem ResumesAt.anew (resumes : ResumesAt t text count s) : s.layout = .fresh := by
  cases resumes with
  | opening => rfl
  | again prior course pause inside => exact pause.anew

/-- Where parsing goes on after a fault there is less text ahead, unless there was none and the
fault is at an indentation that was still open. -/
theorem Pause.shorter {fault : Fault} {next : Standing} (pause : Pause t s fault next) :
    next.ahead <:+ s.ahead ∧
      (next.ahead.length < s.ahead.length ∨ s.layout.closing ≠ []) := by
  cases pause with
  | character ahead unscanned unknown =>
      rw [ahead]
      exact ⟨List.suffix_cons _ _, .inl (by simp)⟩
  | foreign unscanned known =>
      exact ⟨⟨_, Scanner.chars_append_rest known⟩, .inl (Scanner.rest_length_lt known)⟩
  | refused scanned counts kept refused =>
      exact ⟨rest_suffix scanned, .inl (rest_shorter scanned)⟩
  | laidOut takes laidOut stuck =>
      exact ⟨rest_suffix takes.scanned, .inl (rest_shorter takes.scanned)⟩
  | closing noText stuck => exact ⟨List.nil_suffix, .inr (List.ne_nil_of_mem stuck.mem)⟩

/-- Every episode that starts with a new layout passes over some text. Indentations that are still
open at the end were opened by text of the same episode. -/
theorem Episode.piece {fault : Fault} {rest : List Char} (anew : s.layout = .fresh)
    (episode : Episode t s fault rest) : ∃ piece, piece ≠ [] ∧ s.ahead = piece ++ rest := by
  have hShorter : rest <:+ s.ahead ∧ rest.length < s.ahead.length := by
    cases episode with
    | paused course pause =>
        obtain ⟨hAhead, hMoved⟩ := course.shorter
        obtain ⟨hNext, hLess⟩ := pause.shorter
        refine ⟨hNext.trans hAhead, ?_⟩
        have hFinal := hAhead.length_le
        have hRest := hNext.length_le
        rcases hMoved with hSame | hMoved
        · rcases hLess with hLess | hOpen
          · omega
          · rw [hSame, anew] at hOpen
            exact absurd rfl hOpen
        · omega
    | misaligned course takes laidOut given astray =>
        have hAhead := course.shorter.1
        have hLess := rest_shorter takes.scanned
        exact ⟨(rest_suffix takes.scanned).trans hAhead,
          Nat.lt_of_lt_of_le hLess hAhead.length_le⟩
  obtain ⟨⟨piece, hPiece⟩, hLess⟩ := hShorter
  refine ⟨piece, ?_, hPiece.symm⟩
  intro hNil
  rw [← hPiece, hNil] at hLess
  simp at hLess

/-- Parsing goes on only so often: what holds of a standing whenever it holds of all those at which
parsing goes on after the next fault, holds wherever parsing goes on. The induction is on the text
that is ahead, which each resumption makes shorter. -/
theorem ResumesAt.induction
    {motive : (count : Nat) → (s : Standing) → ResumesAt t text count s → Prop}
    (step : ∀ count s (resumes : ResumesAt t text count s),
      (∀ tokens final fault next (course : Course t s tokens final)
        (pause : Pause t final fault next) (inside : fault.isAtEnd = false),
          motive (count + 1) next (resumes.again course pause inside)) → motive count s resumes)
    (count : Nat) (s : Standing) (resumes : ResumesAt t text count s) : motive count s resumes := by
  induction hLength : s.ahead.length using Nat.strongRecOn generalizing count s with
  | ind length ih =>
      refine step count s resumes fun tokens final fault next course pause inside => ?_
      refine ih next.ahead.length ?_ (count + 1) next (resumes.again course pause inside) rfl
      obtain ⟨piece, hNonempty, hPiece⟩ := (Episode.paused course pause).piece resumes.anew
      have hPositive := List.length_pos_iff.mpr hNonempty
      rw [← hLength, hPiece, List.length_append]
      omega

/-- Resuming costs text: each resumption has left at least one character behind. -/
theorem ResumesAt.count_add_ahead_le (resumes : ResumesAt t text count s) :
    count + s.ahead.length ≤ text.length := by
  induction resumes with
  | opening => simp [Standing.opening, String.length_toList]
  | again prior course pause inside ih =>
      obtain ⟨piece, hNonempty, hPiece⟩ := (Episode.paused course pause).piece prior.anew
      rw [hPiece, List.length_append] at ih
      have hLength := List.length_pos_iff.mpr hNonempty
      omega

/-- The faults of the attempt from a standing are charged to pieces of the text that is ahead, in
order and one piece for each, except for one of the end of the text. -/
structure Charged (t : Table) (text : String) (count : Nat) (s : Standing)
    (pieces : List (List Char)) (rest : List Char) : Prop where
  /-- The pieces follow one another. -/
  ahead : s.ahead = pieces.flatten ++ rest
  /-- Each has a character. -/
  nonempty : ∀ piece ∈ pieces, piece ≠ []
  /-- Only a last fault at the end of the text has none. -/
  each : pieces.length = (s.attempt t).faults.length ∨
    pieces.length + 1 = (s.attempt t).faults.length ∧
      ∃ fault, (s.attempt t).faults.getLast? = some fault ∧ fault.isAtEnd = true
  /-- The piece of a fault is what was passed over since parsing went on after the fault before. -/
  episode : ∀ i fault, i < pieces.length → (s.attempt t).faults[i]? = some fault →
    ∃ start, ResumesAt t text (count + i) start ∧
      start.ahead = (pieces.drop i).flatten ++ rest ∧
      Episode t start fault ((pieces.drop (i + 1)).flatten ++ rest)

/-- An attempt without a fault leaves the text uncharged. -/
theorem Charged.of_no_faults (none : (s.attempt t).faults = []) :
    Charged t text count s [] s.ahead :=
  ⟨rfl, by simp, .inl (by simp [none]), by simp⟩

/-- A single fault is charged to the piece of its episode. -/
theorem Charged.of_single {fault : Fault} {rest : List Char} (resumes : ResumesAt t text count s)
    (episode : Episode t s fault rest) (single : (s.attempt t).faults = [fault]) :
    ∃ pieces, Charged t text count s pieces rest := by
  obtain ⟨piece, hNonempty, hPiece⟩ := episode.piece resumes.anew
  refine ⟨[piece], by simpa using hPiece, by simpa using hNonempty, .inl (by simp [single]), ?_⟩
  intro i other hIndex hFault
  obtain rfl : i = 0 := by simpa using hIndex
  obtain rfl : fault = other := by simpa [single] using hFault
  exact ⟨s, resumes, by simpa using hPiece, by simpa using episode⟩

/-- A first fault is charged to the piece of its episode, the others as from where parsing goes
on after it. -/
theorem Charged.cons {tokens : List Token} {final next : Standing} {fault : Fault}
    {pieces : List (List Char)} {rest : List Char} (resumes : ResumesAt t text count s)
    (course : Course t s tokens final) (pause : Pause t final fault next)
    (first : (s.attempt t).faults = fault :: (next.attempt t).faults)
    (charged : Charged t text (count + 1) next pieces rest) :
    ∃ piece, Charged t text count s (piece :: pieces) rest := by
  have hEpisode := Episode.paused course pause
  obtain ⟨piece, hNonempty, hPiece⟩ := hEpisode.piece resumes.anew
  have hAhead : s.ahead = (piece :: pieces).flatten ++ rest := by
    rw [hPiece, charged.ahead, List.flatten_cons, List.append_assoc]
  refine ⟨piece, hAhead, List.forall_mem_cons.mpr ⟨hNonempty, charged.nonempty⟩, ?_, ?_⟩
  · rw [first]
    rcases charged.each with hSame | ⟨hOne, last, hLast, hEnd⟩
    · exact .inl (by simp [hSame])
    · exact .inr ⟨by simp [← hOne], last, by simp [List.getLast?_cons, hLast], hEnd⟩
  · intro i other hIndex hFault
    rw [first] at hFault
    cases i with
    | zero =>
        obtain rfl : fault = other := by simpa using hFault
        refine ⟨s, resumes, by simpa using hAhead, ?_⟩
        simpa [charged.ahead] using hEpisode
    | succ i =>
        obtain ⟨start, hStart, hPieces, hFault⟩ :=
          charged.episode i other (by simpa using hIndex) (by simpa using hFault)
        exact ⟨start, by simpa [Nat.add_assoc, Nat.add_comm 1] using hStart, hPieces, hFault⟩

/-- The faults from any standing where parsing goes on can be charged to the text. -/
theorem exists_charged (resumes : ResumesAt t text count s) :
    ∃ pieces rest, Charged t text count s pieces rest := by
  induction count, s, resumes using ResumesAt.induction with
  | step count s resumes ih =>
      obtain ⟨tokens, final, hCourse, hStop⟩ := exists_course t s
      have hSame := hCourse.attempt_eq
      rw [hSame] at hStop
      generalize hAttempt : final.attempt t = a at hStop
      rw [hAttempt] at hSame
      cases hStop with
      | accepted accepts => exact ⟨_, _, .of_no_faults (by rw [hSame, Attempt.faults])⟩
      | @paused fault next pause =>
          cases hEnd : fault.isAtEnd with
          | true =>
              obtain ⟨pieces, hCharged⟩ := Charged.of_single resumes (.paused hCourse pause)
                (by rw [hSame, Attempt.faults, hEnd, if_pos rfl])
              exact ⟨pieces, _, hCharged⟩
          | false =>
              obtain ⟨pieces, rest, hCharged⟩ := ih tokens final fault next hCourse pause hEnd
              obtain ⟨piece, hAll⟩ := Charged.cons resumes hCourse pause
                (by rw [hSame, Attempt.faults, hEnd, if_neg (by simp)]) hCharged
              exact ⟨_, rest, hAll⟩
      | unlaid takes noLayout =>
          refine ⟨_, _, .of_no_faults ?_⟩
          rw [hSame, Attempt.faults]
          rcases Layout.after_eq_error_iff.mp noLayout with ⟨_, _, rfl⟩ | ⟨_, _, rfl⟩ <;> rfl
      | misaligned takes laidOut given astray =>
          obtain ⟨message, rfl⟩ := Layout.after_fault laidOut astray
          obtain ⟨pieces, hCharged⟩ := Charged.of_single resumes
            (.misaligned hCourse takes laidOut given astray) (by rw [hSame]; rfl)
          exact ⟨pieces, _, hCharged⟩
      | @ended top noText given =>
          rcases conclude_cases t (final.layout.closing.getLast?.or
            (final.layout.passed.or final.last)) top with ⟨tree, hTree⟩ | ⟨fault, hEnd, hPaused⟩
          · exact ⟨_, _, .of_no_faults (by rw [hSame, hTree, Attempt.faults])⟩
          · have hOne : (s.attempt t).faults = [fault] := by
              rw [hSame, hPaused, Attempt.faults, hEnd, if_pos rfl]
            exact ⟨[], s.ahead, rfl, by simp, .inr ⟨by simp [hOne], fault, by simp [hOne], hEnd⟩,
              by simp⟩

/-- From a stretch on there are at most as many faults as characters ahead, and one more. -/
theorem Charged.faults_length_le {pieces : List (List Char)} {rest : List Char}
    (charged : Charged t text count s pieces rest) :
    (s.attempt t).faults.length ≤ s.ahead.length + 1 := by
  have hPieces : pieces.length ≤ pieces.flatten.length := by
    rw [List.length_flatten, ← List.length_map List.length]
    apply List.length_le_sum_of_one_le
    intro n hn
    obtain ⟨piece, hMem, rfl⟩ := List.mem_map.mp hn
    exact List.length_pos_iff.mpr (charged.nonempty piece hMem)
  rw [charged.ahead, List.length_append]
  rcases charged.each with hSame | ⟨hOne, _⟩ <;> omega

end Standing

/-- Parsing ends by itself, whatever the cap. Each time it goes on after a fault, at least one more
character is behind. Every fault but one of the end of the text is charged to a piece of the text of
its own, so a collector records at most one fault for each character and one more. -/
theorem recovery_consumes_text (start : Python.Start) (text : String) :
    let t := Python.table start
    let faults := (attempt t text).faults
    (∀ c : Collector, ∃ n, (c.parse t text).2.diagnostics =
      c.diagnostics ++ (faults.take n).map Diagnostic.ofFault) ∧
    (∀ c : Collector, (c.parse t text).2.diagnostics.length ≤
      c.diagnostics.length + (text.length + 1)) ∧
    (∀ count s, Standing.ResumesAt t text count s → count + s.ahead.length ≤ text.length) ∧
    ∃ pieces rest, Standing.Charged t text 0 (.opening text) pieces rest := by
  intro t faults
  obtain ⟨pieces, rest, hCharged⟩ :=
    Standing.exists_charged (.opening : Standing.ResumesAt t text 0 _)
  have hBound : faults.length ≤ text.length + 1 := hCharged.faults_length_le
  refine ⟨fun c => ⟨c.room, c.drive_diagnostics _⟩, ?_,
    fun count s resumes => resumes.count_add_ahead_le, pieces, rest, hCharged⟩
  intro c
  rw [Collector.parse, Collector.drive_diagnostics, List.length_append, List.length_map]
  have hTake := List.length_take_le' c.room faults
  change c.diagnostics.length + (faults.take c.room).length ≤ _
  omega

end SyntaxSurvey.Parser
