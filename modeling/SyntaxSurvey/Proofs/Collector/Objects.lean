import SyntaxSurvey.Log
import SyntaxSurvey.Proofs.Collector.Strict

/-! Faults as objects. A fault that is raised is an object of its own, also when an earlier one has
the same words. A parser asks about an object before it raises it, and when it shall not go on it
raises that very object; but it may as well be left by one that it never asked about. Whoever
parses with a collector tells the two apart by the object that was recorded last. -/

open SyntaxSurvey.Parser (Attempt)

namespace SyntaxSurvey

/-- Whether a fault is of the kind that a parser asks about. -/
def Fault.isAsked : Fault → Bool
  | .unexpectedToken .. => true
  | .unexpectedCharacter .. => true
  | .unexpectedEnd _ => true
  | _ => false

/-- Only about syntax errors is the collector asked. -/
theorem Fault.isSyntactic_of_isAsked {fault : Fault} (h : fault.isAsked = true) :
    fault.isSyntactic = true := by
  cases fault <;> first | rfl | cases h

/-- What a parser does, each fault being a new object. -/
inductive Conduct where
  | returns (tree : Tree)
  /-- A fault leaves the parser that it has not asked about. -/
  | leaves (fault : Fault)
  /-- The parser asks about a fault. If it shall not go on, the fault leaves it, or another one does if
  there is one. -/
  | asks (fault : Fault) (goesOn : Conduct) (other : Option Fault)

namespace Conduct

/-- A parser that asks about unexpected input only. What it would do after the end of the text does
not matter. -/
def AsksRightly : Conduct → Prop
  | .returns _ => True
  | .leaves _ => True
  | .asks fault goesOn _ =>
    fault.isAsked = true ∧ (fault.isAtEnd = false → goesOn.AsksRightly)

/-- What the parser of this library does in an attempt. -/
def ofAttempt : Attempt → Conduct
  | .parsed tree => .returns tree
  | .broken fault => .leaves fault
  | .paused fault resume => .asks fault (ofAttempt (resume ())) none

end Conduct

namespace Parser.Standing

variable {t : Grammar.Table} {text : String} {s next : Standing} {fault : Fault} {count : Nat}

theorem Pause.isAsked (pause : Pause t s fault next) : fault.isAsked = true := by
  cases pause <;> rfl

theorem asksRightly_conclude (t : Grammar.Table) (before : Option Token) (stack : Stack) :
    (Conduct.ofAttempt (conclude t before stack)).AsksRightly := by
  rw [conclude]
  dsimp only
  split
  · trivial
  · exact ⟨rfl, fun _ => trivial⟩
  · exact ⟨rfl, fun _ => trivial⟩

/-- The parser asks about no fault but those that it may go on from. -/
theorem asksRightly_attempt (resumes : ResumesAt t text count s) :
    (Conduct.ofAttempt (s.attempt t)).AsksRightly := by
  induction count, s, resumes using ResumesAt.induction with
  | step count s resumes ih =>
      obtain ⟨tokens, final, hCourse, hStop⟩ := exists_course t s
      generalize s.attempt t = a at hStop
      cases hStop with
      | accepted accepts => trivial
      | @paused fault next pause =>
          exact ⟨pause.isAsked, fun hInside => ih tokens final fault next hCourse pause hInside⟩
      | unlaid takes noLayout => trivial
      | misaligned takes laidOut given astray => trivial
      | ended noText given => exact asksRightly_conclude t _ _

end Parser.Standing

namespace Collector

/-- A collector among the faults that were raised so far, with what it has logged. The fault that it
recorded last is one of them, by how many were raised before it. -/
structure Session where
  source : String
  cap : Int
  diagnostics : List Diagnostic
  raised : List Fault
  recent : Option (Fin raised.length)
  log : Log

namespace Session

/-- The collector by itself, to which a fault is nothing but its words. -/
def collector (s : Session) : Collector :=
  ⟨s.source, s.cap, s.diagnostics, s.recent.map s.raised.get⟩

def raise (s : Session) (fault : Fault) : Session :=
  { s with
    raised := s.raised ++ [fault]
    recent := s.recent.map (Fin.castLE (by simp)) }

def newest (s : Session) (fault : Fault) : Fin (s.raise fault).raised.length :=
  ⟨s.raised.length, by simp [raise]⟩

def note (s : Session) (object : Fin s.raised.length) : Session :=
  let diagnostic := Diagnostic.ofFault (s.raised.get object)
  { s with
    diagnostics := s.diagnostics ++ [diagnostic]
    recent := some object
    log := s.log ++ [.diagnosed s.source diagnostic] }

def noteNew (s : Session) (fault : Fault) : Session :=
  (s.raise fault).note (s.newest fault)

/-- How a parser came to its end: it returned a tree, or an object left it. -/
inductive Ended where
  | returned (s : Session) (tree : Tree)
  | thrown (s : Session) (object : Fin s.raised.length)

/-- Be asked by a parser until it comes to its end. -/
def converse (s : Session) : Conduct → Ended
  | .returns tree => .returned s tree
  | .leaves fault => .thrown (s.raise fault) (s.newest fault)
  | .asks fault goesOn other =>
    let noted := s.noteNew fault
    if noted.collector.goesOnAfter fault then noted.converse goesOn
    else match other with
      | none => .thrown noted (s.newest fault)
      | some other => .thrown (noted.raise other) (noted.newest other)

/-- Handle what has left a parser. A fault of the text is recorded, unless it is the object that was
recorded last. -/
def Ended.handled : Ended → Outcome × Session
  | .returned s tree => (.tree tree, s)
  | .thrown s object =>
    if (s.raised.get object).isSyntactic then
      (.noTree, if s.recent = some object then s else s.note object)
    else (.escaped (s.raised.get object), s)

def parse (s : Session) (conduct : Conduct) : Outcome × Session :=
  (s.converse conduct).handled

variable {s middle later : Session} {fault : Fault} {conduct : Conduct}

@[simp] theorem get_newest (s : Session) (fault : Fault) :
    (s.raise fault).raised.get (s.newest fault) = fault := by
  simp [raise, newest]

/-- A fault that was recorded before is not the object that is raised now. -/
theorem recent_raise_ne (s : Session) (fault : Fault) :
    (s.raise fault).recent ≠ some (s.newest fault) := by
  intro hSame
  obtain ⟨object, -, hObject⟩ := Option.map_eq_some_iff.mp hSame
  have hNumber : object.val = s.raised.length := congrArg Fin.val hObject
  exact Nat.ne_of_lt object.isLt hNumber

/-- To a collector that knows words only, nothing happens when a fault is raised. -/
@[simp] theorem collector_raise (s : Session) (fault : Fault) :
    (s.raise fault).collector = s.collector := by
  have hRecent : (s.raise fault).recent.map (s.raise fault).raised.get
      = s.recent.map s.raised.get := by
    rw [raise, Option.map_map]
    congr 1
    funext object
    exact List.getElem_append_left object.isLt
  rw [collector, hRecent]
  rfl

@[simp] theorem collector_note (s : Session) (object : Fin s.raised.length) :
    (s.note object).collector = s.collector.record (s.raised.get object) :=
  rfl

theorem collector_noteNew (s : Session) (fault : Fault) :
    (s.noteNew fault).collector = s.collector.record fault := by
  rw [noteNew, collector_note, get_newest, collector_raise]

/-- A syntax error that was thrown is noted unless it was the last one that the collector was asked
about. Anything else escapes. -/
theorem handled_thrown (s : Session) (object : Fin s.raised.length) :
    (Ended.thrown s object).handled
      = if (s.raised.get object).isSyntactic then
          (.noTree, if s.recent = some object then s else s.note object)
        else (.escaped (s.raised.get object), s) :=
  rfl

/-- The object that was recorded last is not recorded again. -/
theorem handled_recent (s : Session) (object : Fin s.raised.length) (hRecent : s.recent = some object)
    (hText : (s.raised.get object).isSyntactic = true) :
    (Ended.thrown s object).handled = (.noTree, s) := by
  rw [handled_thrown, if_pos hText, if_pos hRecent]

/-- A fault that was noted and then thrown is not noted once more. -/
theorem handled_noteNew (s : Session) (hText : fault.isSyntactic = true) :
    (Ended.thrown (s.noteNew fault) (s.newest fault)).handled = (.noTree, s.noteNew fault) := by
  refine handled_recent (s.noteNew fault) (s.newest fault) rfl ?_
  exact (congrArg Fault.isSyntactic (s.get_newest fault)).trans hText

/-- An object that the parser has not asked about is recorded if it is a fault of the text. -/
theorem handled_newest (s : Session) (fault : Fault) :
    (Ended.thrown (s.raise fault) (s.newest fault)).handled
      = if fault.isSyntactic then (.noTree, s.noteNew fault)
        else (.escaped fault, s.raise fault) := by
  rw [handled_thrown, get_newest, if_neg (s.recent_raise_ne fault)]
  rfl

theorem parse_leaves (s : Session) (fault : Fault) :
    s.parse (.leaves fault)
      = if fault.isSyntactic then (.noTree, s.noteNew fault)
        else (.escaped fault, s.raise fault) :=
  s.handled_newest fault

/-- When the parser asks about a fault, it is noted, and what follows depends on whether there is
room for more. -/
theorem parse_asks (s : Session) {goesOn : Conduct} {other : Option Fault}
    (hAsked : fault.isAsked = true) :
    s.parse (.asks fault goesOn other)
      = if (s.noteNew fault).collector.goesOnAfter fault then (s.noteNew fault).parse goesOn
        else match other with
          | none => (.noTree, s.noteNew fault)
          | some other => (s.noteNew fault).parse (.leaves other) := by
  simp only [parse, converse]
  split
  · rfl
  · cases other with
    | none => exact s.handled_noteNew (Fault.isSyntactic_of_isAsked hAsked)
    | some other => rfl

/-- From one state of a collector to a later one, so many faults were raised, and those of the text
were recorded and told of, each once and in order. -/
structure Records (s : Session) (more : List Fault) (later : Session) : Prop where
  source : later.source = s.source
  raised : later.raised = s.raised ++ more
  diagnostics : later.diagnostics
    = s.diagnostics ++ (more.filter Fault.isSyntactic).map Diagnostic.ofFault
  log : later.log = s.log ++ (more.filter Fault.isSyntactic).map fun fault =>
    .diagnosed s.source (.ofFault fault)

namespace Records

theorem refl (s : Session) : Records s [] s :=
  ⟨rfl, (List.append_nil _).symm, (List.append_nil _).symm, (List.append_nil _).symm⟩

/-- Sessions in a row record the faults of one after those of the other. -/
theorem trans {first second : List Fault} (h : Records s first middle)
    (h' : Records middle second later) : Records s (first ++ second) later where
  source := h'.source.trans h.source
  raised := by rw [h'.raised, h.raised, List.append_assoc]
  diagnostics := by
    rw [h'.diagnostics, h.diagnostics, List.filter_append, List.map_append, List.append_assoc]
  log := by
    rw [h'.log, h.log, h.source, List.filter_append, List.map_append, List.append_assoc]

/-- What is no syntax error is raised and not noted. -/
theorem raise (s : Session) (hDefect : fault.isSyntactic = false) :
    Records s [fault] (s.raise fault) := by
  refine ⟨rfl, rfl, ?_, ?_⟩ <;> simp [Session.raise, hDefect]

theorem noteNew (s : Session) (hText : fault.isSyntactic = true) :
    Records s [fault] (s.noteNew fault) := by
  have hDiagnostics : (s.noteNew fault).diagnostics = s.diagnostics
      ++ [.ofFault ((s.raise fault).raised.get (s.newest fault))] := rfl
  have hLog : (s.noteNew fault).log = s.log
      ++ [.diagnosed s.source (.ofFault ((s.raise fault).raised.get (s.newest fault)))] := rfl
  rw [get_newest] at hDiagnostics hLog
  exact ⟨rfl, rfl, by simp [hDiagnostics, hText], by simp [hLog, hText]⟩

end Records

/-- The faults of one call: what becomes of them, and that there is one if there is no tree. -/
theorem exists_records (s : Session) (hAsks : conduct.AsksRightly) :
    ∃ more, Records s more (s.parse conduct).2
      ∧ ((s.parse conduct).1 = .noTree → ∃ fault ∈ more, fault.isSyntactic = true) := by
  have hLeaves (s : Session) (fault : Fault) : Records s [fault] (s.parse (.leaves fault)).2
      ∧ ((s.parse (.leaves fault)).1 = .noTree → fault.isSyntactic = true) := by
    rw [parse_leaves]
    cases hText : fault.isSyntactic with
    | true => exact ⟨.noteNew s hText, fun _ => rfl⟩
    | false => exact ⟨.raise s hText, nofun⟩
  induction conduct generalizing s with
  | returns tree => exact ⟨[], .refl s, nofun⟩
  | leaves fault =>
      obtain ⟨hRecords, hText⟩ := hLeaves s fault
      exact ⟨[fault], hRecords, fun hNone => ⟨fault, List.mem_singleton_self fault, hText hNone⟩⟩
  | asks fault goesOn other ih =>
      obtain ⟨hAsked, hRest⟩ := hAsks
      have hText := Fault.isSyntactic_of_isAsked hAsked
      have hNoted := Records.noteNew s hText
      rw [parse_asks s hAsked]
      split
      · rename_i hOn
        have hInside : fault.isAtEnd = false := by
          rw [collector_noteNew, goesOnAfter_record] at hOn
          exact hOn.1
        obtain ⟨more, hMore, -⟩ := ih (s.noteNew fault) (hRest hInside)
        exact ⟨fault :: more, hNoted.trans hMore, fun _ => ⟨fault, List.mem_cons_self, hText⟩⟩
      · cases other with
        | none => exact ⟨[fault], hNoted, fun _ => ⟨fault, List.mem_cons_self, hText⟩⟩
        | some other =>
            exact ⟨[fault, other], hNoted.trans (hLeaves _ other).1,
              fun _ => ⟨fault, List.mem_cons_self, hText⟩⟩

/-- There is no tree exactly if a syntax error was thrown at the end. -/
theorem parse_eq_noTree_iff (s : Session) (conduct : Conduct) :
    (s.parse conduct).1 = .noTree
      ↔ ∃ later object, s.converse conduct = .thrown later object
        ∧ (later.raised.get object).isSyntactic = true := by
  rw [parse]
  cases s.converse conduct with
  | returned later tree => simp [Ended.handled]
  | thrown later object =>
      rw [handled_thrown]
      split
      · rename_i hText
        exact iff_of_true rfl ⟨later, object, rfl, hText⟩
      · rename_i hDefect
        refine iff_of_false nofun ?_
        rintro ⟨later, object, hEnded, hText⟩
        cases hEnded
        exact hDefect hText

/-- What leaves the parser was raised in this very call. -/
theorem le_of_thrown {object : Fin later.raised.length}
    (hEnded : s.converse conduct = .thrown later object) : s.raised.length ≤ object.val := by
  have hNewest (s : Session) (fault : Fault) : (s.newest fault).val = s.raised.length := rfl
  have hLength (s : Session) (fault : Fault) :
      (s.noteNew fault).raised.length = s.raised.length + 1 := by
    simp [noteNew, note, raise]
  induction conduct generalizing s with
  | returns tree => cases hEnded
  | leaves fault =>
      cases hEnded
      exact Nat.le_of_eq (hNewest s fault).symm
  | asks fault goesOn other ih =>
      simp only [converse] at hEnded
      split at hEnded
      · have hLater := ih hEnded
        have hMore := hLength s fault
        omega
      · cases other with
        | none =>
            cases hEnded
            exact Nat.le_of_eq (hNewest s fault).symm
        | some other =>
            cases hEnded
            have hLast := hNewest (s.noteNew fault) other
            have hMore := hLength s fault
            omega

/-- With the parser of this library, nothing depends on telling objects apart. -/
theorem parse_ofAttempt (s : Session) (a : Attempt) (hAsks : (Conduct.ofAttempt a).AsksRightly) :
    (s.parse (.ofAttempt a)).1 = (s.collector.drive a).1
      ∧ (s.parse (.ofAttempt a)).2.collector = (s.collector.drive a).2 := by
  induction a generalizing s with
  | parsed tree => exact ⟨rfl, rfl⟩
  | broken fault =>
      rw [Conduct.ofAttempt, parse_leaves, drive]
      split
      · exact ⟨rfl, s.collector_noteNew fault⟩
      · exact ⟨rfl, s.collector_raise fault⟩
  | paused fault resume ih =>
      obtain ⟨hAsked, hRest⟩ := hAsks
      rw [Conduct.ofAttempt, parse_asks s hAsked, drive, ← collector_noteNew]
      split
      · rename_i hOn
        have hInside : fault.isAtEnd = false := by
          rw [collector_noteNew, goesOnAfter_record] at hOn
          exact hOn.1
        exact ih () (s.noteNew fault) (hRest hInside)
      · exact ⟨rfl, rfl⟩

/-- What one call does to a collector. -/
structure RecordedOnce (s : Session) (conduct : Conduct) : Prop where
  /-- All faults of the text that were raised are recorded, each object once. -/
  recorded : ∃ more, Records s more (s.parse conduct).2
  /-- There is no tree exactly when a fault of the text that was raised in this call has left the
  parser. -/
  noTree_iff : (s.parse conduct).1 = .noTree
    ↔ ∃ later object, s.converse conduct = .thrown later object
      ∧ s.raised.length ≤ object.val ∧ (later.raised.get object).isSyntactic = true
  told : (s.parse conduct).1 = .noTree →
    s.diagnostics.length < (s.parse conduct).2.diagnostics.length

/-- Whatever a parser asks about, however it ends and whatever a collector has recorded before, every
fault is recorded once. The parser of this library is one of those, and with it a collector that
knows objects does what one does that knows words. -/
theorem faults_recorded_once :
    (∀ (s : Session) (conduct : Conduct), conduct.AsksRightly → RecordedOnce s conduct)
    ∧ ∀ (s : Session) (t : Grammar.Table) (text : String),
      (Conduct.ofAttempt (Parser.attempt t text)).AsksRightly
        ∧ (s.parse (.ofAttempt (Parser.attempt t text))).1 = (s.collector.parse t text).1
        ∧ (s.parse (.ofAttempt (Parser.attempt t text))).2.collector
          = (s.collector.parse t text).2 := by
  refine ⟨fun s conduct hAsks => ?_, fun s t text => ?_⟩
  · obtain ⟨more, hMore, hSome⟩ := exists_records s hAsks
    refine ⟨⟨more, hMore⟩, ?_, fun hNone => ?_⟩
    · rw [parse_eq_noTree_iff]
      constructor
      · rintro ⟨later, object, hEnded, hText⟩
        exact ⟨later, object, hEnded, le_of_thrown hEnded, hText⟩
      · rintro ⟨later, object, hEnded, -, hText⟩
        exact ⟨later, object, hEnded, hText⟩
    · obtain ⟨fault, hMem, hText⟩ := hSome hNone
      have hFault : fault ∈ more.filter Fault.isSyntactic := List.mem_filter.mpr ⟨hMem, hText⟩
      rw [hMore.diagnostics, List.length_append, List.length_map]
      exact Nat.lt_add_of_pos_right (List.length_pos_of_mem hFault)
  · have hAsks : (Conduct.ofAttempt (Parser.attempt t text)).AsksRightly := by
      rw [← Parser.Standing.attempt_opening]
      exact Parser.Standing.asksRightly_attempt .opening
    exact ⟨hAsks, s.parse_ofAttempt _ hAsks⟩

/-- A collector that has recorded a misaligned line of an earlier text. -/
def used : Session :=
  ⟨"x.py", 2, [.ofFault (.misalignedLine "astray")], [.misalignedLine "astray"], some 0, []⟩

/-- After a character a line is misaligned in the same words as before, and it is recorded again. -/
theorem faults_recorded_once_of_used :
    (Conduct.asks (.unexpectedCharacter '?' .unknown) (.leaves (.misalignedLine "astray"))
        (some (.misalignedLine "astray"))).AsksRightly
      ∧ RecordedOnce used (.asks (.unexpectedCharacter '?' .unknown)
        (.leaves (.misalignedLine "astray")) (some (.misalignedLine "astray"))) := by
  have hAsks : (Conduct.asks (.unexpectedCharacter '?' .unknown)
      (.leaves (.misalignedLine "astray")) (some (.misalignedLine "astray"))).AsksRightly :=
    ⟨rfl, fun _ => trivial⟩
  exact ⟨hAsks, faults_recorded_once.1 used _ hAsks⟩

end Session

end Collector

end SyntaxSurvey
