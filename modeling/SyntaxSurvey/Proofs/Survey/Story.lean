import SyntaxSurvey.Proofs.Survey.Coherence

/-! The story that the log tells. Every line of a survey says by its first words what it is about: the
turn of a source, how the source came out, a fault, or something by the way. Read by these words alone,
the log tells of each source what its record says, and the totals say what the log tells. -/

namespace SyntaxSurvey

namespace Log

def opensWith (words line : String) : Bool :=
  words.toList.isPrefixOf line.toList

def isTurn (line : String) : Bool :=
  opensWith "[" line

def isSuccess (line : String) : Bool :=
  opensWith "  SUCCESS (" line

def isFailure (line : String) : Bool :=
  opensWith "  FAILED (" line

def isFault (line : String) : Bool :=
  opensWith "ERROR at line " line || opensWith "ERROR (position unknown) in " line

/-- A line that neither begins a turn nor says how a source came out. -/
def IsAside (line : String) : Prop :=
  isTurn line = false ∧ isSuccess line = false ∧ isFailure line = false

def lines (log : Log) : List String :=
  log.map Event.text

namespace Event

variable {event : Event}

theorem text_processing (index : Nat) (path : Path) :
    (processing index path).text = s!"[{index}] Processing: {path.text}" :=
  rfl

/-- The first words of a line tell what event it is the line of. -/
theorem opensWith_text (event : Event) :
    (isTurn event.text = true ↔ ∃ index path, event = .processing index path)
      ∧ (isSuccess event.text = true ↔ ∃ took, event = .succeeded took)
      ∧ (isFailure event.text = true
        ↔ event = .failedByError ∨ ∃ count, event = .failedByFaults count)
      ∧ (isFault event.text = true ↔ ∃ source diagnostic, event = .diagnosed source diagnostic) := by
  delta Event.text Event.textWith
  cases event
  case diagnosed source diagnostic =>
    dsimp only
    split <;> simp [isTurn, isSuccess, isFailure, isFault, opensWith, Graph.toString_self]
  all_goals simp [isTurn, isSuccess, isFailure, isFault, opensWith, Graph.toString_self]

/-- Only the line that begins a turn looks like one. -/
theorem isTurn_text : isTurn event.text = true ↔ ∃ index path, event = .processing index path :=
  event.opensWith_text.1

theorem isSuccess_text : isSuccess event.text = true ↔ ∃ took, event = .succeeded took :=
  event.opensWith_text.2.1

theorem isFailure_text : isFailure event.text = true
    ↔ event = .failedByError ∨ ∃ count, event = .failedByFaults count :=
  event.opensWith_text.2.2.1

/-- Only the line of a diagnostic looks like one. -/
theorem isFault_text : isFault event.text = true
    ↔ ∃ source diagnostic, event = .diagnosed source diagnostic :=
  event.opensWith_text.2.2.2

/-- Turns and outcomes are told by the survey itself. -/
theorem isAside_text (hChannel : event.channel ≠ .survey) : IsAside event.text := by
  refine ⟨?_, ?_, ?_⟩
  all_goals rw [← Bool.not_eq_true]
  · rw [isTurn_text]
    rintro ⟨index, path, rfl⟩
    exact hChannel rfl
  · rw [isSuccess_text]
    rintro ⟨took, rfl⟩
    exact hChannel rfl
  · rw [isFailure_text]
    rintro (rfl | ⟨count, rfl⟩) <;> exact hChannel rfl

/-- Faults are told of where sources are parsed. -/
theorem isFault_text_eq_false (hChannel : event.channel ≠ .parsing) :
    isFault event.text = false := by
  rw [← Bool.not_eq_true, isFault_text]
  rintro ⟨source, diagnostic, rfl⟩
  exact hChannel rfl

end Event

variable {log more : Log} {channel : Channel}

theorem lines_append : lines (log ++ more) = log.lines ++ more.lines :=
  List.map_append

/-- Lines that do not come from the survey itself are asides. -/
theorem From.isAside (h : log.From channel) (hChannel : channel ≠ .survey) :
    ∀ line ∈ log.lines, IsAside line := by
  intro line hLine
  obtain ⟨event, hEvent, rfl⟩ := List.mem_map.mp hLine
  exact Event.isAside_text (h event hEvent ▸ hChannel)

theorem From.filter_isFault (h : log.From channel) (hChannel : channel ≠ .parsing) :
    log.lines.filter isFault = [] := by
  rw [List.filter_eq_nil_iff]
  intro line hLine
  obtain ⟨event, hEvent, rfl⟩ := List.mem_map.mp hLine
  rw [Event.isFault_text_eq_false (h event hEvent ▸ hChannel)]
  exact Bool.false_ne_true

end Log

open Log (IsAside isTurn isSuccess isFailure isFault)

/-- The line that tells of a fault of a source. -/
def Diagnostic.told (source : Path) (diagnostic : Diagnostic) : String :=
  (Log.Event.diagnosed source.text diagnostic).text

theorem Collector.drive_source (c : Collector) (a : Parser.Attempt) :
    (c.drive a).2.source = c.source := by
  induction a generalizing c with
  | parsed tree => rfl
  | broken fault =>
      rw [drive]
      split <;> rfl
  | paused fault resume ih =>
      rw [drive]
      split
      · exact ih () (c.record fault)
      · rfl

/-- The collector logs one line for each of its diagnostics. -/
theorem Collector.filter_isFault_log (c : Collector) {path : Path} (hSource : c.source = path.text) :
    c.log.lines.filter isFault = c.diagnostics.map (Diagnostic.told path) := by
  rw [log, Log.lines, List.map_map, hSource, List.filter_eq_self.mpr]
  · rfl
  · intro line hLine
    obtain ⟨diagnostic, -, rfl⟩ := List.mem_map.mp hLine
    exact Log.Event.isFault_text.mpr ⟨_, _, rfl⟩

namespace Reading

/-- A trouble that stops a reading is told of, but not as a fault. -/
theorem filter_isFault_interrupted (path : Path) (record : Record) (log : Log) (trouble : Trouble) :
    (interrupted path record log trouble).log.lines.filter isFault = log.lines.filter isFault := by
  have hNone : (Log.lines [.interrupted path trouble, .interruption trouble]).filter isFault = [] := by
    rw [List.filter_eq_nil_iff]
    intro line hLine
    obtain ⟨event, hEvent, rfl⟩ := List.mem_map.mp hLine
    rw [Log.Event.isFault_text]
    rintro ⟨source, diagnostic, rfl⟩
    simp at hEvent
  rw [interrupted, Log.lines_append, List.filter_append, hNone, List.append_nil]

/-- A reading tells of exactly those faults that its record lists. -/
theorem filter_isFault_ofText (t : Grammar.Table) (path : Path) (record : Record) (text : String) :
    (ofText t path record text).log.lines.filter isFault
      = (ofText t path record text).record.diagnostics.map (Diagnostic.told path) := by
  have hSource : ((Collector.fresh path.text Collector.defaultCap).parse t text).2.source
      = path.text :=
    Collector.drive_source _ _
  rw [ofText]
  generalize (Collector.fresh path.text Collector.defaultCap).parse t text = result at hSource ⊢
  obtain ⟨outcome, c⟩ := result
  have hRead : (Log.lines (.read path text.length :: c.log)).filter isFault
      = c.diagnostics.map (Diagnostic.told path) := by
    have hNot : ¬isFault (Log.Event.read path text.length).text = true := by
      rw [Log.Event.isFault_text]
      rintro ⟨source, diagnostic, hEq⟩
      cases hEq
    rw [Log.lines, List.map_cons, List.filter_cons_of_neg hNot]
    exact c.filter_isFault_log hSource
  cases outcome with
  | tree found => exact hRead
  | noTree => exact hRead
  | escaped fault => exact (filter_isFault_interrupted path _ _ _).trans hRead

/-- Reading a file logs one line for each diagnostic of its record. -/
theorem filter_isFault_ofFile (t : Grammar.Table) (files : FileSystem) (path : Path)
    (took : Duration) :
    (ofFile t files path took).log.lines.filter isFault
      = (ofFile t files path took).record.diagnostics.map (Diagnostic.told path) := by
  rw [ofFile]
  cases files.read path with
  | error failure => exact filter_isFault_interrupted path _ [] _
  | ok bytes =>
      cases hText : Document.read bytes with
      | error defect =>
          simp only [hText]
          exact filter_isFault_interrupted path _ [] _
      | ok text =>
          simp only [hText]
          exact filter_isFault_ofText t path _ text

end Reading

namespace Survey

variable {setting : Setting} {plan : Plan} {files : FileSystem} {paths : List Path}
  {s : Survey} {path : Path}

/-- What is said in a turn after it has begun and before the source has come out. -/
def asides (setting : Setting) (plan : Plan) (s : Survey) (path : Path) : Log :=
  (reading setting s.files path).log
    ++ match plan.imageDirectory? with
      | none => []
      | some directory =>
        (s.saving setting plan directory path).log
          ++ s.overtaking (s.turn setting plan directory path)

/-- All that is said in a turn. -/
def tale (setting : Setting) (plan : Plan) (s : Survey) (path : Path) : Log :=
  .processing (s.summary.records.length + 1) path :: asides setting plan s path
    ++ [outcome (added setting plan s path) (setting.parsing path)]

/-- A turn adds its tale to the log. -/
theorem visit_log_tale (setting : Setting) (plan : Plan) (s : Survey) (path : Path) :
    (s.visit setting plan path).log = s.log ++ tale setting plan s path := by
  rw [tale, asides, added]
  cases hPlan : plan.imageDirectory? with
  | none =>
      rw [visit]
      simp [hPlan, close, reading]
  | some directory =>
      rw [visit_log_eq hPlan]
      simp [foretold, reading]

/-- That an image was overtaken is said in an aside. -/
theorem isAside_overtaking (s : Survey) (turn : Turn) :
    ∀ line ∈ (s.overtaking turn).lines, IsAside line ∧ isFault line = false := by
  intro line hLine
  obtain ⟨event, hEvent, rfl⟩ := List.mem_map.mp hLine
  rcases overtaking_cases s turn with hNone | ⟨image, previous, hTold⟩
  · rw [hNone] at hEvent
    cases hEvent
  · rw [hTold] at hEvent
    obtain rfl := List.mem_singleton.mp hEvent
    refine ⟨⟨?_, ?_, ?_⟩, Log.Event.isFault_text_eq_false nofun⟩
    all_goals rw [← Bool.not_eq_true]
    · simp [Log.Event.isTurn_text]
    · simp [Log.Event.isSuccess_text]
    · simp [Log.Event.isFailure_text]

/-- All that is said between the first and the last line of a turn are asides. -/
theorem isAside_asides (setting : Setting) (plan : Plan) (s : Survey) (path : Path) :
    ∀ line ∈ (asides setting plan s path).lines, IsAside line := by
  have hReading : (reading setting s.files path).log.From .parsing :=
    Reading.from_ofFile setting.table s.files path (setting.parsing path)
  intro line hLine
  rw [asides, Log.lines_append, List.mem_append] at hLine
  rcases hLine with hRead | hLater
  · exact hReading.isAside (by decide) line hRead
  · cases hPlan : plan.imageDirectory? with
    | none =>
        simp only [hPlan] at hLater
        cases hLater
    | some directory =>
        simp only [hPlan] at hLater
        rw [Log.lines_append, List.mem_append] at hLater
        rcases hLater with hSaved | hTold
        · have hSaving : (s.saving setting plan directory path).log.From .rendering :=
            Image.from_save _ _ _ _ _ _ _ _
          exact hSaving.isAside (by decide) line hSaved
        · exact (isAside_overtaking s _ line hTold).1

theorem added_diagnostics (setting : Setting) (plan : Plan) (s : Survey) (path : Path) :
    (added setting plan s path).diagnostics = (reading setting s.files path).record.diagnostics := by
  rcases added_cases setting plan s path with hKept | ⟨trouble, -, hStopped⟩ | ⟨image, -, hImage⟩
  · rw [hKept]
  · rw [hStopped]
    rfl
  · rw [hImage]

/-- Whatever is drawn or overwritten in a turn, the faults that are told of are those of the
record. -/
theorem filter_isFault_asides (setting : Setting) (plan : Plan) (s : Survey) (path : Path) :
    (asides setting plan s path).lines.filter isFault
      = (added setting plan s path).diagnostics.map (Diagnostic.told path) := by
  have hReading := Reading.filter_isFault_ofFile setting.table s.files path (setting.parsing path)
  rw [added_diagnostics, asides, Log.lines_append, List.filter_append]
  cases hPlan : plan.imageDirectory? with
  | none => exact (List.append_nil _).trans hReading
  | some directory =>
      have hSaving : (s.saving setting plan directory path).log.From .rendering :=
        Image.from_save _ _ _ _ _ _ _ _
      have hTold : (s.overtaking (s.turn setting plan directory path)).lines.filter isFault = [] := by
        rw [List.filter_eq_nil_iff]
        intro line hLine
        simp [(isAside_overtaking s _ line hLine).2]
      simp only
      rw [Log.lines_append, List.filter_append, hSaving.filter_isFault (by decide), hTold]
      exact (List.append_nil _).trans hReading

/-- How the lines of a turn agree with the record of its source: those after the first one and
before the last one, and the last one. -/
structure Tells (path : Path) (record : Record) (between : List String) (last : String) : Prop where
  named : record.filepath = path.text
  asides : ∀ line ∈ between, IsAside line
  faults : between.filter isFault = record.diagnostics.map (Diagnostic.told path)
  success : isSuccess last = true ↔ record.succeeded = true
  failure : isFailure last = true ↔ record.succeeded = false
  exception : last = "  FAILED (exception)" ↔ record.succeeded = false ∧ record.error.isSome = true
  faulty : record.succeeded = false → record.error = none →
    1 ≤ record.diagnostics.length
      ∧ last = s!"  FAILED ({record.diagnostics.length} syntax errors)"

/-- The three ways in which a coherent record comes out. -/
theorem outcome_cases {record : Record} (h : record.Coherent) (took : Duration) :
    record.succeeded = true ∧ outcome record took = .succeeded took
      ∨ record.succeeded = false ∧ record.error.isSome = true
        ∧ outcome record took = .failedByError
      ∨ record.succeeded = false ∧ record.error = none ∧ 1 ≤ record.diagnostics.length
        ∧ outcome record took = .failedByFaults record.diagnostics.length := by
  cases hSuccess : record.succeeded with
  | true => exact Or.inl ⟨rfl, by simp [outcome, hSuccess]⟩
  | false =>
      cases hError : record.error with
      | some error =>
          have hWords := (h.shown error hError).1
          have hSet : record.error?.isSome = true := by
            simp [Record.error?, hError, Option.filter, hWords]
          exact Or.inr (Or.inl ⟨rfl, rfl, by simp [outcome, hSuccess, hSet]⟩)
      | none =>
          have hUnset : record.error?.isSome = false := by simp [Record.error?, hError]
          have hOutcome : outcome record took = .failedByFaults record.diagnostics.length := by
            simp [outcome, hSuccess, hUnset]
          have hSome : record.diagnostics.length ≠ 0 := by
            intro hZero
            exact h.outcome_ne took (by rw [hOutcome, hZero])
          exact Or.inr (Or.inr ⟨rfl, rfl, Nat.one_le_iff_ne_zero.mpr hSome, hOutcome⟩)

/-- A failure by faults is not worded like one by an error: both begin alike, and they end in
different words. -/
theorem text_failedByFaults_ne (count : Nat) :
    (Log.Event.failedByFaults count).text ≠ "  FAILED (exception)" := by
  intro hText
  have hEnd := congrArg (fun line => line.toList.reverse) hText
  simp [Log.Event.text_failedByFaults] at hEnd

section Outcome

variable {record : Record} (h : record.Coherent) (took : Duration)

include h

/-- The outcome of a record says that it succeeded exactly if it did. -/
theorem isSuccess_outcome :
    isSuccess (outcome record took).text = true ↔ record.succeeded = true := by
  rw [Log.Event.isSuccess_text]
  rcases outcome_cases h took with ⟨hSuccess, hOutcome⟩ | ⟨hSuccess, -, hOutcome⟩
    | ⟨hSuccess, -, -, hOutcome⟩ <;> simp [hOutcome, hSuccess]

theorem isFailure_outcome :
    isFailure (outcome record took).text = true ↔ record.succeeded = false := by
  rw [Log.Event.isFailure_text]
  rcases outcome_cases h took with ⟨hSuccess, hOutcome⟩ | ⟨hSuccess, -, hOutcome⟩
    | ⟨hSuccess, -, -, hOutcome⟩ <;> simp [hOutcome, hSuccess]

/-- The outcome of a record speaks of an exception exactly if it failed with an error. -/
theorem outcome_eq_exception_iff :
    (outcome record took).text = "  FAILED (exception)"
      ↔ record.succeeded = false ∧ record.error.isSome = true := by
  rcases outcome_cases h took with ⟨hSuccess, hOutcome⟩ | ⟨hSuccess, hError, hOutcome⟩
    | ⟨-, hError, -, hOutcome⟩
  · have hNot : ¬isFailure (outcome record took).text = true := by
      rw [isFailure_outcome h, hSuccess]
      exact Bool.noConfusion
    refine iff_of_false (fun hText => ?_) (by simp [hSuccess])
    rw [hText] at hNot
    exact hNot rfl
  · exact iff_of_true (by rw [hOutcome]; rfl) ⟨hSuccess, hError⟩
  · rw [hOutcome]
    exact iff_of_false (text_failedByFaults_ne _) (by simp [hError])

/-- Otherwise a failure speaks of as many faults as the record has diagnostics. -/
theorem outcome_of_faults (hFailed : record.succeeded = false) (hNone : record.error = none) :
    1 ≤ record.diagnostics.length
      ∧ (outcome record took).text = s!"  FAILED ({record.diagnostics.length} syntax errors)" := by
  rcases outcome_cases h took with ⟨hSuccess, -⟩ | ⟨-, hError, -⟩ | ⟨-, -, hSome, hOutcome⟩
  · simp [hFailed] at hSuccess
  · simp [hNone] at hError
  · exact ⟨hSome, by rw [hOutcome]; rfl⟩

end Outcome

/-- A turn tells of its source what the record says that it adds. -/
theorem tells_tale (setting : Setting) (plan : Plan) (s : Survey) (path : Path) :
    Tells path (added setting plan s path) (asides setting plan s path).lines
      (outcome (added setting plan s path) (setting.parsing path)).text where
  named := filepath_added setting plan s path
  asides := isAside_asides setting plan s path
  faults := filter_isFault_asides setting plan s path
  success := isSuccess_outcome (coherent_added setting plan s path) _
  failure := isFailure_outcome (coherent_added setting plan s path) _
  exception := outcome_eq_exception_iff (coherent_added setting plan s path) _
  faulty := outcome_of_faults (coherent_added setting plan s path) _

theorem Tells.withImage {record : Record} {between : List String} {last : String}
    (h : Tells path record between last) (image : Option String) :
    Tells path { record with imagePath := image } between last :=
  ⟨h.named, h.asides, h.faults, h.success, h.failure, h.exception, h.faulty⟩

/-- A survey has told of one source after the other. -/
theorem stage_log (count : Nat) :
    (stage setting plan files paths count).log
      = (outset plan files paths).log
        ++ ((paths.take count).mapIdx fun index path =>
          tale setting plan (stage setting plan files paths index) path).flatten := by
  induction count with
  | zero => simp [stage, visitAll]
  | succ count ih =>
      cases hPath : paths[count]? with
      | none =>
          have hLength : paths.length ≤ count := List.getElem?_eq_none_iff.mp hPath
          rw [stage_of_length_le hLength, ih, List.take_of_length_le hLength,
            List.take_of_length_le (Nat.le_succ_of_le hLength)]
      | some path =>
          have hLength : (paths.take count).length = count :=
            List.length_take_of_le (List.getElem?_eq_some_iff.mp hPath).1.le
          rw [stage_succ hPath, visit_log_tale, ih, List.take_add_one, hPath, Option.toList_some,
            List.mapIdx_append, List.flatten_append, hLength, List.append_assoc]
          simp

def heading (plan : Plan) (paths : List Path) : Log :=
  [.enumerated paths.length plan.root, .found paths.length plan.suffix plan.root]

theorem isAside_heading (plan : Plan) (paths : List Path) :
    ∀ line ∈ (heading plan paths).lines, IsAside line ∧ isFault line = false := by
  intro line hLine
  obtain ⟨event, hEvent, rfl⟩ := List.mem_map.mp hLine
  rw [IsAside]
  simp only [← Bool.not_eq_true, Log.Event.isTurn_text, Log.Event.isSuccess_text,
    Log.Event.isFailure_text, Log.Event.isFault_text]
  rcases List.mem_pair.mp hEvent with rfl | rfl <;> simp

theorem log_outset (plan : Plan) (files : FileSystem) (paths : List Path) :
    (outset plan files paths).log = heading plan paths := by
  rw [outset]
  cases plan.imageDirectory? <;> rfl

/-- The tale of a turn begins with the line of its source and ends with its outcome. -/
theorem lines_tale (setting : Setting) (plan : Plan) (s : Survey) (path : Path) :
    (tale setting plan s path).lines
      = s!"[{s.summary.records.length + 1}] Processing: {path.text}"
        :: (asides setting plan s path).lines
        ++ [(outcome (added setting plan s path) (setting.parsing path)).text] := by
  rw [tale, Log.lines_append, ← Log.Event.text_processing]
  rfl

/-- A turn has one line that begins it. -/
theorem filter_isTurn_tale (setting : Setting) (plan : Plan) (s : Survey) (path : Path) :
    (tale setting plan s path).lines.filter isTurn
      = [s!"[{s.summary.records.length + 1}] Processing: {path.text}"] := by
  have hFirst : isTurn (Log.Event.processing (s.summary.records.length + 1) path).text = true :=
    Log.Event.isTurn_text.mpr ⟨_, path, rfl⟩
  rw [Log.Event.text_processing] at hFirst
  have hBetween : (asides setting plan s path).lines.filter isTurn = [] :=
    List.filter_eq_nil_iff.mpr fun line hLine =>
      Bool.not_eq_true _ ▸ (isAside_asides setting plan s path line hLine).1
  have hLast : isTurn (outcome (added setting plan s path) (setting.parsing path)).text = false := by
    rw [← Bool.not_eq_true, Log.Event.isTurn_text]
    rcases outcome_cases (coherent_added setting plan s path) (setting.parsing path) with
      ⟨-, hOutcome⟩ | ⟨-, -, hOutcome⟩ | ⟨-, -, -, hOutcome⟩ <;> simp [hOutcome]
  rw [lines_tale, List.filter_append, List.filter_cons_of_pos hFirst, hBetween,
    List.filter_singleton, hLast]
  rfl

/-- Lines of a kind that only the last line of a turn can be of are counted by the last lines. -/
theorem countP_tale {kind : String → Bool} (hAside : ∀ line, IsAside line → kind line = false)
    (hTurn : ∀ index path, kind (Log.Event.processing index path).text = false) (s : Survey)
    (path : Path) :
    (tale setting plan s path).lines.countP kind
      = if kind (outcome (added setting plan s path) (setting.parsing path)).text then 1 else 0 := by
  have hBetween : (asides setting plan s path).lines.countP kind = 0 := by
    rw [List.countP_eq_zero]
    intro line hLine
    simp [hAside line (isAside_asides setting plan s path line hLine)]
  have hFirst : ¬kind s!"[{s.summary.records.length + 1}] Processing: {path.text}" = true :=
    ne_true_of_eq_false (hTurn _ path)
  rw [lines_tale, List.countP_append, List.countP_cons_of_neg hFirst, hBetween, Nat.zero_add,
    List.countP_singleton]

/-- At every stage the counters say how many sources the log has told of as good and as bad. -/
theorem counters_stage (setting : Setting) (plan : Plan) (files : FileSystem) (paths : List Path)
    (count : Nat) :
    (stage setting plan files paths count).summary.succeeded
        = (stage setting plan files paths count).log.lines.countP isSuccess
      ∧ (stage setting plan files paths count).summary.failed
        = (stage setting plan files paths count).log.lines.countP isFailure := by
  induction count with
  | zero =>
      have hNone {kind : String → Bool}
          (hAside : ∀ line, IsAside line → kind line = false) :
          (outset plan files paths).log.lines.countP kind = 0 := by
        rw [List.countP_eq_zero, log_outset]
        intro line hLine
        simp [hAside line (isAside_heading plan paths line hLine).1]
      have hFirst : stage setting plan files paths 0 = outset plan files paths := rfl
      rw [hFirst, hNone fun _ h => h.2.1, hNone fun _ h => h.2.2, summary_outset]
      exact ⟨rfl, rfl⟩
  | succ count ih =>
      rcases stage_cases setting plan files paths count with hSame | ⟨path, -, hVisit⟩
      · rw [hSame]
        exact ih
      · obtain ⟨summary, hSummary, hAdded⟩ := visit_summary setting plan
          (stage setting plan files paths count) path
        have hCounters : summary.succeeded = (stage setting plan files paths count).summary.succeeded
            ∧ summary.failed = (stage setting plan files paths count).summary.failed := by
          rcases hSummary with rfl | ⟨index, rfl⟩ <;> exact ⟨rfl, rfl⟩
        have hCoherent := coherent_added setting plan (stage setting plan files paths count) path
        have hNoSuccess (index : Nat) (path : Path) :
            isSuccess (Log.Event.processing index path).text = false := by
          simp [← Bool.not_eq_true, Log.Event.isSuccess_text]
        have hNoFailure (index : Nat) (path : Path) :
            isFailure (Log.Event.processing index path).text = false := by
          simp [← Bool.not_eq_true, Log.Event.isFailure_text]
        have hSuccess := isSuccess_outcome hCoherent (setting.parsing path)
        have hFailure := isFailure_outcome hCoherent (setting.parsing path)
        rw [hVisit, hAdded, visit_log_tale, Log.lines_append, List.countP_append,
          List.countP_append, ← ih.1, ← ih.2, ← hCounters.1, ← hCounters.2,
          countP_tale (fun _ h => h.2.1) hNoSuccess, countP_tale (fun _ h => h.2.2) hNoFailure]
        cases hCame : (added setting plan (stage setting plan files paths count) path).succeeded <;>
          simp_all [Summary.add]

/-- After so many turns as many sources have been named, numbered from one on. -/
theorem filter_isTurn_stage (setting : Setting) (plan : Plan) (files : FileSystem) {count : Nat}
    (hCount : count ≤ paths.length) :
    (stage setting plan files paths count).log.lines.filter isTurn
      = (paths.take count).mapIdx fun index path => s!"[{index + 1}] Processing: {path.text}" := by
  induction count with
  | zero =>
      have hFirst : stage setting plan files paths 0 = outset plan files paths := rfl
      rw [hFirst, log_outset, List.filter_eq_nil_iff.mpr]
      · rfl
      · intro line hLine
        simp [(isAside_heading plan paths line hLine).1.1]
  | succ count ih =>
      have hPath : paths[count]? = some paths[count] := List.getElem?_eq_getElem hCount
      have hLength : (paths.take count).length = count := List.length_take_of_le (by omega)
      rw [stage_succ hPath, visit_log_tale, Log.lines_append, List.filter_append, ih (by omega),
        filter_isTurn_tale, length_stage (by omega), List.take_add_one, hPath, Option.toList_some,
        List.mapIdx_append, hLength]
      simp

/-- The story of a survey that ends with a summary: the lines of its log, and how its records and its
totals agree with them. -/
structure Story (paths : List Path) (summary : Summary) (lines : List String) : Prop where
  length : summary.records.length = paths.length
  /-- After some lines about nothing in particular, there are the lines of one source after the
  other, each as its record has it. -/
  told : ∃ (head : List String) (turns : List (List String)), lines = head ++ turns.flatten
    ∧ turns.length = paths.length ∧ (∀ line ∈ head, IsAside line ∧ isFault line = false)
    ∧ ∀ (index : Nat) (path : Path) (record : Record), paths[index]? = some path →
      summary.records[index]? = some record →
      ∃ between last, turns[index]?
          = some (s!"[{index + 1}] Processing: {path.text}" :: between ++ [last])
        ∧ Tells path record between last
  /-- Every source has its turn, in order, and only once. -/
  turns : lines.filter isTurn
    = paths.mapIdx fun index path => s!"[{index + 1}] Processing: {path.text}"
  /-- Whatever directory is named with them, the totals are the numbers of lines. -/
  totals : ∀ directory,
    [.ruler, .summaryTitle, .ruler, .total (lines.countP isSuccess + lines.countP isFailure),
      .totalSucceeded (lines.countP isSuccess), .totalFailed (lines.countP isFailure)]
    <+: (summary.account directory).1

/-- An account begins with the totals. -/
theorem totals_isPrefix_account (summary : Summary) (directory : Option Path) :
    [.ruler, .summaryTitle, .ruler, .total summary.total, .totalSucceeded summary.succeeded,
      .totalFailed summary.failed] <+: (summary.account directory).1 := by
  simp only [Summary.account]
  split
  · exact List.prefix_append _ _
  · rw [List.append_assoc]
    exact List.prefix_append _ _

/-- The log of all turns tells the records. -/
theorem story_stage :
    Story paths (stage setting plan files paths paths.length).summary
      (stage setting plan files paths paths.length).log.lines where
  length := length_stage (Nat.le_refl _)
  told := by
    refine ⟨(outset plan files paths).log.lines, paths.mapIdx fun index path =>
      (tale setting plan (stage setting plan files paths index) path).lines, ?_, ?_, ?_, ?_⟩
    · rw [stage_log, List.take_length, Log.lines_append, Log.lines, Log.lines, List.map_flatten,
        List.mapIdx_eq_zipIdx_map, List.mapIdx_eq_zipIdx_map, List.map_map]
      rfl
    · exact List.length_mapIdx
    · rw [log_outset]
      exact isAside_heading plan paths
    · intro index path record hPath hRecord
      obtain ⟨source, image, hSource, rfl, -⟩ := record_of_stage hRecord
      obtain rfl : source = path := Option.some.inj (hSource.symm.trans hPath)
      have hBefore : index ≤ paths.length := (List.getElem?_eq_some_iff.mp hPath).1.le
      refine ⟨_, _, ?_, (tells_tale setting plan _ source).withImage image⟩
      rw [List.getElem?_mapIdx, hPath, Option.map_some, lines_tale, length_stage hBefore]
  turns := by
    have hTurns := filter_isTurn_stage setting plan files (Nat.le_refl paths.length)
    rwa [List.take_length] at hTurns
  totals directory := by
    obtain ⟨hSucceeded, hFailed⟩ := counters_stage setting plan files paths paths.length
    rw [← hSucceeded, ← hFailed, (mirrors_stage paths.length).whole]
    exact totals_isPrefix_account _ directory

/-- A survey that ends without a summary says how many sources there are, or nothing at all. -/
theorem log_of_error {trouble : Trouble} (hRun : (run setting plan files).result = .error trouble) :
    (run setting plan files).log = [] ∨ ∃ paths, (run setting plan files).log = heading plan paths := by
  rw [run] at hRun ⊢
  cases hSources : Discovery.sources files plan.root plan.suffix with
  | error reason => exact Or.inl rfl
  | ok paths =>
      cases hPlan : plan.imageDirectory? with
      | none => simp [hSources, hPlan, complete] at hRun
      | some directory =>
          cases hMake : files.makeDirectories directory with
          | mk made failure =>
              cases failure with
              | none => simp [hSources, hPlan, hMake, complete] at hRun
              | some failure => exact Or.inr ⟨paths, by simp [hMake, heading]⟩

/-- The log tells the same story as the records, in either mode and whatever comes of the sources. A
survey that ends without a summary tells of no source. -/
theorem log_tells_records (setting : Setting) (plan : Plan) (files : FileSystem) :
    (∀ summary, (run setting plan files).result = .ok summary →
      ∃ paths, Discovery.sources files plan.root plan.suffix = .ok paths
        ∧ Story paths summary (run setting plan files).log.lines)
    ∧ ∀ trouble, (run setting plan files).result = .error trouble →
      ∀ line ∈ (run setting plan files).log.lines, IsAside line ∧ isFault line = false := by
  refine ⟨fun summary hRun => ?_, fun trouble hRun line hLine => ?_⟩
  · obtain ⟨paths, hSources, rfl, hLog, -⟩ := run_stage hRun
    rw [hLog]
    exact ⟨paths, hSources, story_stage⟩
  · rcases log_of_error hRun with hNil | ⟨paths, hHeading⟩
    · rw [hNil] at hLine
      cases hLine
    · rw [hHeading] at hLine
      exact isAside_heading plan paths line hLine

theorem log_tells_records_of_twins :
    ∃ summary paths, (run mirror twinsDrawn twins).result = .ok summary
      ∧ Story paths summary (run mirror twinsDrawn twins).log.lines := by
  obtain ⟨summary, hRun⟩ := exists_summary_of_twins
  obtain ⟨paths, -, hStory⟩ := (log_tells_records mirror twinsDrawn twins).1 summary hRun
  exact ⟨summary, paths, hRun, hStory⟩

end Survey

end SyntaxSurvey
