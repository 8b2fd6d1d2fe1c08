import SyntaxSurvey.Parser.Strict
import SyntaxSurvey.Proofs.Parser.Recovery
import SyntaxSurvey.Reading

/-! Going on after faults against giving up at the first one. Whoever goes on accepts the same texts,
with the same trees, and is told of the same fault first. -/

open SyntaxSurvey.Grammar (Table)
open SyntaxSurvey.Parser (Attempt Standing parseStrictly)

namespace SyntaxSurvey

namespace Parser

namespace Standing

variable {t : Table} {s next : Standing} {fault : Fault}

/-- The parser pauses only at faults of the text. -/
theorem Pause.isSyntactic (pause : Pause t s fault next) : fault.isSyntactic = true := by
  cases pause <;> rfl

theorem isSyntactic_of_paused {resume : Unit → Attempt}
    (h : s.attempt t = .paused fault resume) : fault.isSyntactic = true := by
  obtain ⟨tokens, final, -, hStop⟩ := exists_course t s
  rw [h] at hStop
  generalize hAttempt : Attempt.paused fault resume = a at hStop
  cases hStop with
  | accepted accepts => cases hAttempt
  | paused pause =>
      cases hAttempt
      exact pause.isSyntactic
  | unlaid takes noLayout => cases hAttempt
  | misaligned takes laidOut given astray => cases hAttempt
  | ended noText given =>
      rw [conclude] at hAttempt
      dsimp only at hAttempt
      split at hAttempt
      · cases hAttempt
      · cases hAttempt
        rfl
      · cases hAttempt
        rfl

end Standing

variable {t : Table} {text : String} {fault : Fault}

/-- A fault that is none of the text ends parsing for good. -/
theorem attempt_of_strictly_error (h : parseStrictly t text = .error fault)
    (hDefect : fault.isSyntactic = false) : attempt t text = .broken fault := by
  rw [parseStrictly] at h
  cases hAttempt : attempt t text with
  | parsed tree => simp [hAttempt, Attempt.strictly] at h
  | broken other =>
      obtain rfl : other = fault := by simpa [hAttempt, Attempt.strictly] using h
      rfl
  | paused other resume =>
      obtain rfl : other = fault := by simpa [hAttempt, Attempt.strictly] using h
      have hSyntactic := Standing.isSyntactic_of_paused
        ((Standing.attempt_opening t text).trans hAttempt)
      simp [hSyntactic] at hDefect

end Parser

namespace Collector

variable (c : Collector) {a : Attempt} {t : Table} {text : String} {fault : Fault} {tree : Tree}

/-- Where the strict parser has a tree, the recovering one comes to the same without a diagnostic.
-/
theorem drive_of_strictly_ok (h : a.strictly = .ok tree) : c.drive a = (.tree tree, c) := by
  cases a with
  | parsed found =>
      obtain rfl : found = tree := by simpa [Attempt.strictly] using h
      rfl
  | broken fault => simp [Attempt.strictly] at h
  | paused fault resume => simp [Attempt.strictly] at h

/-- The fault that ends a parse without recovery is the first one recorded by a parse with it. -/
theorem drive_of_strictly_error (h : a.strictly = .error fault) (hText : fault.isSyntactic = true) :
    ∃ later, (c.drive a).2.diagnostics = c.diagnostics ++ .ofFault fault :: later := by
  obtain ⟨room, hRoom⟩ := c.room_eq_succ
  have hFirst : ∃ later, a.faults = fault :: later := by
    cases a with
    | parsed tree => simp [Attempt.strictly] at h
    | broken other =>
        obtain rfl : other = fault := by simpa [Attempt.strictly] using h
        exact ⟨[], by rw [Attempt.faults, if_pos hText]⟩
    | paused other resume =>
        obtain rfl : other = fault := by simpa [Attempt.strictly] using h
        rw [Attempt.faults]
        split
        · exact ⟨[], rfl⟩
        · exact ⟨_, rfl⟩
  obtain ⟨later, hLater⟩ := hFirst
  exact ⟨(later.take room).map .ofFault, by simp [drive_diagnostics, hLater, hRoom]⟩

/-- A collector without diagnostics still has none after a parse that gave a tree if and only if
that tree is found without recovery. -/
theorem parse_clean_iff (source : String) (cap : Int) :
    ((fresh source cap).parse t text).1 = .tree tree
        ∧ ((fresh source cap).parse t text).2.hasDiagnostics = false
      ↔ parseStrictly t text = .ok tree := by
  constructor
  · rintro ⟨hTree, hClean⟩
    cases hStrict : parseStrictly t text with
    | ok found =>
        rw [parse, drive_of_strictly_ok _ hStrict] at hTree
        rw [Outcome.tree.inj hTree]
    | error fault =>
        cases hText : fault.isSyntactic with
        | true =>
            obtain ⟨later, hLater⟩ := drive_of_strictly_error (fresh source cap) hStrict hText
            simp [parse, hasDiagnostics, hLater] at hClean
        | false =>
            have hBroken := Parser.attempt_of_strictly_error hStrict hText
            simp [parse, hBroken, drive, hText] at hTree
  · intro hStrict
    rw [parse, drive_of_strictly_ok _ hStrict]
    exact ⟨rfl, rfl⟩

end Collector

namespace Reading

variable {t : Table} {path : Path} {record : Record} {text : String} {tree : Tree} {fault : Fault}

/-- A text that the strict parser accepts is read with success and that very tree. -/
theorem ofText_of_strictly_ok (h : parseStrictly t text = .ok tree) :
    ofText t path record text =
      ⟨{ record with diagnostics := [], status := Record.success }, some tree,
        [.read path text.length]⟩ := by
  rw [ofText, Collector.parse, Collector.drive_of_strictly_ok _ h]
  rfl

/-- A text with a fault is a failure, and its first diagnostic is that of the fault. If the fault is
none of the text, it is the error of the record and nothing else is recorded. -/
structure FailsAt (fault : Fault) (reading : Reading) : Prop where
  failed : reading.record.status = Record.failure
  first : fault.isSyntactic = true → ∃ later, reading.record.diagnostics = .ofFault fault :: later
  defect : fault.isSyntactic = false → reading.record.diagnostics = []
    ∧ reading.record.error = some (Trouble.parser fault).line ∧ reading.tree = none

/-- A text that the strict parser refuses is read as a failure, whose first diagnostic is that of
the fault. -/
theorem ofText_of_strictly_error (h : parseStrictly t text = .error fault) :
    (ofText t path record text).FailsAt fault := by
  rw [ofText]
  cases hText : fault.isSyntactic with
  | true =>
      obtain ⟨later, hLater⟩ := Collector.drive_of_strictly_error
        (Collector.fresh path.text Collector.defaultCap) h hText
      obtain ⟨outcome, c, hParse⟩ : ∃ outcome c,
          (Collector.fresh path.text Collector.defaultCap).parse t text = (outcome, c) :=
        ⟨_, _, rfl⟩
      rw [← Collector.parse, hParse] at hLater
      have hFirst : c.diagnostics = .ofFault fault :: later := hLater
      have hSome : c.hasDiagnostics = true := by simp [Collector.hasDiagnostics, hFirst]
      rw [hParse]
      cases outcome with
      | escaped other => exact ⟨rfl, fun _ => ⟨later, hFirst⟩, by simp [hText]⟩
      | tree found => exact ⟨by simp [hSome], fun _ => ⟨later, hFirst⟩, by simp [hText]⟩
      | noTree => exact ⟨by simp [hSome], fun _ => ⟨later, hFirst⟩, by simp [hText]⟩
  | false =>
      have hBroken := Parser.attempt_of_strictly_error h hText
      have hParse : (Collector.fresh path.text Collector.defaultCap).parse t text =
          (.escaped fault, .fresh path.text Collector.defaultCap) := by
        simp [Collector.parse, hBroken, Collector.drive, hText]
      rw [hParse]
      exact ⟨rfl, by simp [hText], fun _ => ⟨rfl, rfl, rfl⟩⟩

/-- Going on after faults changes nothing about which files are accepted. A file is a success if and
only if it can be read, is text, and that text is parsed to a tree without recovery; that tree is
then the tree of the reading. A fault that parsing without recovery ends at is the first one that is
recorded. Both hold of a collector by itself, whatever its cap. -/
theorem success_iff_strictly (t : Table) (files : FileSystem) (path : Path) (took : Duration) :
    ((ofFile t files path took).record.status = Record.success ↔
      ∃ bytes text tree, files.read path = .ok bytes ∧ Document.read bytes = .ok text
        ∧ parseStrictly t text = .ok tree) ∧
    (∀ bytes text, files.read path = .ok bytes → Document.read bytes = .ok text →
      (∀ tree, parseStrictly t text = .ok tree →
        (ofFile t files path took).tree = some tree
          ∧ (ofFile t files path took).record.diagnostics = []
          ∧ (ofFile t files path took).record.error = none) ∧
      ∀ fault, parseStrictly t text = .error fault →
        (ofFile t files path took).FailsAt fault) ∧
    ∀ (source : String) (cap : Int) (text : String),
      (∀ tree, ((Collector.fresh source cap).parse t text).1 = .tree tree
          ∧ ((Collector.fresh source cap).parse t text).2.hasDiagnostics = false
        ↔ parseStrictly t text = .ok tree) ∧
      ∀ fault, parseStrictly t text = .error fault → fault.isSyntactic = true →
        ∃ later, ((Collector.fresh source cap).parse t text).2.diagnostics =
          .ofFault fault :: later := by
  have hOfText {bytes : List UInt8} {text : String} (hBytes : files.read path = .ok bytes)
      (hText : Document.read bytes = .ok text) : ofFile t files path took =
        ofText t path { Record.fresh path.name path.text with parseTime := took.seconds } text := by
    rw [ofFile, hBytes]
    simp only [hText]
  refine ⟨⟨fun hSuccess => ?_, ?_⟩, fun bytes text hBytes hText => ⟨?_, ?_⟩,
    fun source cap text => ⟨fun tree => Collector.parse_clean_iff source cap, ?_⟩⟩
  · cases hBytes : files.read path with
    | error failure =>
        rw [ofFile, hBytes] at hSuccess
        simp [interrupted, Record.stoppedBy, Record.failure, Record.success] at hSuccess
    | ok bytes =>
        cases hText : Document.read bytes with
        | error defect =>
            rw [ofFile, hBytes] at hSuccess
            simp [hText, interrupted, Record.stoppedBy, Record.failure, Record.success] at hSuccess
        | ok text =>
            cases hStrict : parseStrictly t text with
            | ok tree => exact ⟨bytes, text, tree, rfl, hText, hStrict⟩
            | error fault =>
                rw [hOfText hBytes hText, (ofText_of_strictly_error hStrict).failed] at hSuccess
                simp [Record.failure, Record.success] at hSuccess
  · rintro ⟨bytes, text, tree, hBytes, hText, hStrict⟩
    rw [hOfText hBytes hText, ofText_of_strictly_ok hStrict]
  · intro tree hStrict
    rw [hOfText hBytes hText, ofText_of_strictly_ok hStrict]
    exact ⟨rfl, rfl, rfl⟩
  · intro fault hStrict
    rw [hOfText hBytes hText]
    exact ofText_of_strictly_error hStrict
  · exact fun fault hStrict hText => Collector.drive_of_strictly_error _ hStrict hText

/-- A table for texts of line feeds alone, which leave no token. -/
def feeds : Table where
  rows := #[⟨(∅ : Std.HashMap String Grammar.Action).insert Grammar.endOfText
      (.reduce ⟨"text", [], "text", false⟩),
    (∅ : Std.HashMap String Nat).insert "text" 1, ⟨[⟨"FEED", .literal ['\n']⟩], []⟩⟩]
  final := some 1
  ignored := ["FEED"]
  anyScanner := ⟨[], []⟩
  reductionBound := 0

theorem parseStrictly_feeds : parseStrictly feeds "\n" = .ok (.node "text" []) := by
  have hText : "\n".toList = ['\n'] := by decide +kernel
  have hScan : Standing.scan feeds ⟨[], .first, ['\n'], none, .fresh⟩ =
      some ⟨"FEED", ['\n'], []⟩ := rfl
  rw [parseStrictly, ← Standing.attempt_opening, Standing.opening, hText,
    Standing.attempt_of_ignored hScan rfl, Standing.past, Standing.attempt_nil_fresh]
  simp [Parser.conclude, Parser.endToken, Parser.offer, Parser.offerWithin, Table.action?, feeds,
    Parser.Stack.state, Parser.complete?, Table.goto?, Parser.build, Parser.childrenOf,
    Attempt.strictly, Grammar.Production.symbols]

theorem parseStrictly_feeds_of_letter : parseStrictly feeds "x\n" =
    .error (.unexpectedCharacter 'x' (.ofPosition .first)) := by
  have hText : "x\n".toList = ['x', '\n'] := by decide +kernel
  rw [parseStrictly, ← Standing.attempt_opening, Standing.opening, hText,
    Standing.attempt_of_unscanned rfl rfl]
  rfl

theorem success_iff_strictly_of_feeds :
    let files : FileSystem := ⟨.directory [("feeds", .file [0x0a]), ("letter", .file [0x78])], []⟩
    (ofFile feeds files (.ofString "feeds") ⟨0⟩).record.status = Record.success ∧
    (ofFile feeds files (.ofString "feeds") ⟨0⟩).tree = some (.node "text" []) ∧
    (ofFile feeds files (.ofString "letter") ⟨0⟩).FailsAt
      (.unexpectedCharacter 'x' (.ofPosition .first)) := by
  intro files
  have hFeeds : files.read (.ofString "feeds") = .ok [0x0a] := by decide +kernel
  have hFeedsText : Document.read [0x0a] = .ok "\n" := by decide +kernel
  have hLetter : files.read (.ofString "letter") = .ok [0x78] := by decide +kernel
  have hLetterText : Document.read [0x78] = .ok "x\n" := by decide +kernel
  obtain ⟨hSuccess, -, -⟩ := success_iff_strictly feeds files (.ofString "feeds") ⟨0⟩
  obtain ⟨-, hRead, -⟩ := success_iff_strictly feeds files (.ofString "feeds") ⟨0⟩
  obtain ⟨-, hStopped, -⟩ := success_iff_strictly feeds files (.ofString "letter") ⟨0⟩
  exact ⟨hSuccess.mpr ⟨_, _, _, hFeeds, hFeedsText, parseStrictly_feeds⟩,
    ((hRead _ _ hFeeds hFeedsText).1 _ parseStrictly_feeds).1,
    (hStopped _ _ hLetter hLetterText).2 _ parseStrictly_feeds_of_letter⟩

end Reading

end SyntaxSurvey
