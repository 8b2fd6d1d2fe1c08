import SyntaxSurvey.Proofs.Json.Words
import SyntaxSurvey.Proofs.Report.Saving
import SyntaxSurvey.Proofs.Survey.Coherence
import SyntaxSurvey.Proofs.Text.Utf8

/-! Reports lose nothing as long as their texts are texts. The file that such a report is saved to
holds a text that denotes the report as a value and nothing else, and all that a report tells of a
survey can be had from that value. A text with a half of a pair cuts the report short, as does an
integer of too many digits, and what is left of it in the file denotes nothing. -/

namespace SyntaxSurvey

open Number (Quantity)
open Text (Raw)

namespace Json

theorem mapNumbersItems_eq (f : Quantity → Quantity) (items : List Json) :
    mapNumbersItems f items = items.map (mapNumbers f) := by
  induction items with
  | nil => rfl
  | cons item items ih => rw [mapNumbersItems, ih, List.map_cons]

theorem mem_numbersItems {q : Quantity} {items : List Json} :
    q ∈ numbersItems items ↔ ∃ item ∈ items, q ∈ numbers item := by
  induction items with
  | nil => simp [numbersItems]
  | cons item items ih => simp [numbersItems, ih]

end Json

def Record.retimed (f : Quantity → Quantity) (r : Record) : Record :=
  { r with parseTime := f r.parseTime }

def Summary.retimed (f : Quantity → Quantity) (s : Summary) : Summary :=
  { s with records := s.records.map (Record.retimed f) }

def Summary.untimed (s : Summary) : Summary :=
  s.retimed fun _ => .integer 0

/-- Times that are changed twice are changed once by both changes. -/
theorem Summary.retimed_retimed (f g : Quantity → Quantity) (s : Summary) :
    (s.retimed f).retimed g = s.retimed (g ∘ f) := by
  simp [Summary.retimed, Record.retimed, Function.comp_def]

theorem Summary.untimed_retimed (f : Quantity → Quantity) (s : Summary) :
    (s.retimed f).untimed = s.untimed :=
  s.retimed_retimed f _

theorem Diagnostic.reread_toJson (d : Diagnostic) :
    d.toJson.mapNumbers Quantity.reread = d.toJson := rfl

theorem Record.reread_toJson (r : Record) :
    r.toJson.mapNumbers Quantity.reread = (r.retimed Quantity.reread).toJson := by
  have hDiagnostics : (r.diagnostics.map Diagnostic.toJson).map (Json.mapNumbers Quantity.reread)
      = r.diagnostics.map Diagnostic.toJson := by
    rw [List.map_map]
    exact List.map_congr_left fun d _ => d.reread_toJson
  have hOptional (s : Option String) :
      (Json.ofText? s).mapNumbers Quantity.reread = Json.ofText? s := by
    cases s <;> rfl
  simp [toJson, retimed, Json.mapNumbers, Json.mapNumbersFields, Json.mapNumbersItems_eq,
    hDiagnostics, hOptional]

/-- The numbers of a report read again are its times read again. -/
theorem Report.reread_toJson (r : Report) :
    r.toJson.mapNumbers Quantity.reread
      = { r with summary := r.summary.retimed Quantity.reread : Report }.toJson := by
  have hRecords : (r.summary.records.map Record.toJson).map (Json.mapNumbers Quantity.reread)
      = (r.summary.records.map (Record.retimed Quantity.reread)).map Record.toJson := by
    rw [List.map_map, List.map_map]
    exact List.map_congr_left fun record _ => record.reread_toJson
  have hCount (n : Int) : Quantity.reread (.integer n) = .integer n := rfl
  simp [toJson, Summary.fields, Summary.retimed, Json.mapNumbers, Json.mapNumbersFields,
    Json.mapNumbersItems_eq, Json.ofInt, hRecords, hCount]

section Numbers

variable {p : Quantity → Prop}

theorem Diagnostic.of_mem_numbers (hInteger : ∀ n, p (.integer n)) (d : Diagnostic) :
    ∀ q ∈ d.toJson.numbers, p q := by
  simp [toJson, Json.numbers, Json.numbersFields, Json.ofInt, hInteger]

/-- The numbers of a record are places and its time. -/
theorem Record.forall_numbers (hInteger : ∀ n, p (.integer n)) (r : Record) :
    (∀ q ∈ r.toJson.numbers, p q) ↔ p r.parseTime := by
  have hOptional (s : Option String) : (Json.ofText? s).numbers = [] := by
    cases s <;> rfl
  have hDiagnostics : ∀ q ∈ Json.numbersItems (r.diagnostics.map Diagnostic.toJson), p q := by
    intro q hMem
    obtain ⟨item, hItem, hNumber⟩ := Json.mem_numbersItems.mp hMem
    obtain ⟨d, -, rfl⟩ := List.mem_map.mp hItem
    exact d.of_mem_numbers hInteger q hNumber
  simpa [toJson, Json.numbers, Json.numbersFields, hOptional, or_imp, forall_and]
    using fun _ => hDiagnostics

/-- The numbers of a report are counts, places and times. -/
theorem Report.forall_numbers (hInteger : ∀ n, p (.integer n)) (r : Report) :
    (∀ q ∈ r.toJson.numbers, p q) ↔ ∀ record ∈ r.summary.records, p record.parseTime := by
  have hRecords : (∀ q ∈ Json.numbersItems (r.summary.records.map Record.toJson), p q)
      ↔ ∀ record ∈ r.summary.records, p record.parseTime := by
    constructor
    · intro h record hRecord
      rw [← record.forall_numbers hInteger]
      intro q hMem
      exact h q (Json.mem_numbersItems.mpr ⟨_, List.mem_map_of_mem hRecord, hMem⟩)
    · intro h q hMem
      obtain ⟨item, hItem, hNumber⟩ := Json.mem_numbersItems.mp hMem
      obtain ⟨record, hRecord, rfl⟩ := List.mem_map.mp hItem
      exact (record.forall_numbers hInteger).mpr (h record hRecord) q hNumber
  rw [← hRecords]
  simp [toJson, Summary.fields, Json.numbers, Json.numbersFields, Json.ofInt, hInteger]

end Numbers

section Injective

variable {τ : Type}

theorem Json.ofText?_injective : Function.Injective (Json.ofText? (τ := τ)) := by
  intro s t h
  cases s <;> cases t <;> simp_all [Json.ofText?]

theorem Diagnostic.toJson_injective : Function.Injective (Diagnostic.toJson (τ := τ)) := by
  intro d e h
  cases d
  cases e
  simpa [toJson, Json.ofInt] using h

theorem Record.toJson_injective : Function.Injective (Record.toJson (τ := τ)) := by
  intro r s h
  cases r
  cases s
  simpa [toJson, Diagnostic.toJson_injective.list_map.eq_iff, Json.ofText?_injective.eq_iff]
    using h

/-- All that a report is made of is told in its value. -/
theorem Report.toJson_injective : Function.Injective (Report.toJson (τ := τ)) := by
  rintro ⟨root, mode, instant, total, succeeded, failed, records⟩
    ⟨root', mode', instant', total', succeeded', failed', records'⟩ h
  simpa [toJson, Summary.fields, Json.ofInt, Record.toJson_injective.list_map.eq_iff] using h

end Injective

/-- Two values have the same fields, but for the one of a name. -/
def Json.AgreeBut (name : String) (value other : Json) : Prop :=
  ∀ key, key ≠ name → value.field? key = other.field? key

/-- Reports whose values are the same but for the time at which they were made have the same root,
mode and summary. -/
theorem Report.eq_of_agreeBut {r s : Report} (h : r.toJson.AgreeBut "generated_at" s.toJson) :
    r.root = s.root ∧ r.mode = s.mode ∧ r.summary = s.summary := by
  have hRoot := h "root" (by decide)
  have hMode := h "mode" (by decide)
  have hTotal := h "total" (by decide)
  have hSucceeded := h "succeeded" (by decide)
  have hFailed := h "failed" (by decide)
  have hFiles := h "files" (by decide)
  obtain ⟨root, mode, instant, total, succeeded, failed, records⟩ := r
  obtain ⟨root', mode', instant', total', succeeded', failed', records'⟩ := s
  simp [toJson, Summary.fields, Json.field?, List.lookup_cons, Json.ofInt]
    at hRoot hMode hTotal hSucceeded hFailed hFiles
  have hRecords := Record.toJson_injective.list_map hFiles
  exact ⟨hRoot, hMode, by rw [hTotal, hSucceeded, hFailed, hRecords]⟩

namespace Report

variable {r s : Report}

/-- The times of a report are numbers of the format. -/
def InFormat {τ : Type} (r : Report τ) : Prop :=
  ∀ record ∈ r.summary.records, record.parseTime.InFormat

def HasDigits {τ : Type} (r : Report τ) : Prop :=
  ∀ record ∈ r.summary.records, record.parseTime.HasDigits

/-- The text of a report denotes its value and nothing else. -/
theorem denotes_iff (hTimes : r.InFormat) {value : Json} :
    Json.Denotes true r.text.toList value ↔ value = r.toJson :=
  Json.denotes_text_iff ((r.forall_numbers fun _ => trivial).mpr hTimes)

/-- The text belongs to the grammar exactly if the times have digits. -/
theorem denotes_strict_iff (hTimes : r.InFormat) {value : Json} :
    Json.Denotes false r.text.toList value ↔ value = r.toJson ∧ r.HasDigits := by
  have hWhole : Json.Denotes true r.text.toList r.toJson := (denotes_iff hTimes).mpr rfl
  have hDigits : (∃ other, Json.Denotes false r.text.toList other) ↔ r.HasDigits :=
    Json.exists_denotes_text_iff.trans (r.forall_numbers fun _ => trivial)
  constructor
  · intro h
    exact ⟨h.unique hWhole, hDigits.mp ⟨value, h⟩⟩
  · rintro ⟨rfl, h⟩
    obtain ⟨other, hOther⟩ := hDigits.mpr h
    rwa [hOther.unique hWhole] at hOther

/-- Reports whose texts say the same, but for the time at which they were made, are of the same root
and mode and tell of the same survey. Times are let aside, since those that are no numbers of the
format are not told apart. -/
theorem eq_of_texts_agreeBut {value other : Json} (hValue : Json.Denotes true r.text.toList value)
    (hSecond : Json.Denotes true s.text.toList other) (h : value.AgreeBut "generated_at" other) :
    r.root = s.root ∧ r.mode = s.mode ∧ r.summary.untimed = s.summary.untimed := by
  have hReread (t : Report) : Json.Denotes true t.text.toList
      { t with summary := t.summary.retimed Quantity.reread : Report }.toJson := by
    rw [← t.reread_toJson]
    exact Json.denotes_text fun _ _ => Or.inl rfl
  rw [hValue.unique (hReread r), hSecond.unique (hReread s)] at h
  obtain ⟨hRoot, hMode, hSummary⟩ := eq_of_agreeBut h
  refine ⟨hRoot, hMode, ?_⟩
  rw [← r.summary.untimed_retimed Quantity.reread, ← s.summary.untimed_retimed Quantity.reread]
  exact congrArg Summary.untimed hSummary

end Report

theorem Reading.parseTime_ofFile (t : Grammar.Table) (files : FileSystem) (path : Path)
    (took : Duration) : (ofFile t files path took).record.parseTime = took.seconds := by
  unfold ofFile
  dsimp only
  split
  · rfl
  · split
    · rfl
    · unfold ofText
      dsimp only
      split <;> rfl

namespace Survey

variable {setting : Setting} {plan : Plan}

/-- The time that is told of a source is the one that was taken. -/
theorem parseTime_added (s : Survey) (path : Path) :
    (added setting plan s path).parseTime = (setting.parsing path).seconds := by
  have hReading : (reading setting s.files path).record.parseTime = (setting.parsing path).seconds :=
    Reading.parseTime_ofFile _ _ _ _
  rcases added_cases setting plan s path with hKept | ⟨trouble, -, hStopped⟩ | ⟨image, -, hImage⟩
  · rw [hKept, hReading]
  · rw [hStopped, Record.stoppedBy, hReading]
  · rw [hImage, hReading]

/-- The times of a report of a survey are numbers of the format. -/
theorem inFormat_of_run {files : FileSystem} {r : Report}
    (hRun : (run setting plan files).result = .ok r.summary) : r.InFormat := by
  obtain ⟨paths, -, hSummary, -, -⟩ := run_stage hRun
  intro record hMem
  rw [hSummary] at hMem
  obtain ⟨index, hIndex⟩ := List.mem_iff_getElem?.mp hMem
  obtain ⟨path, image, -, rfl, -⟩ := record_of_stage hIndex
  dsimp only
  rw [parseTime_added]
  exact Quantity.inFormat_ofDecimal _ _ _

end Survey

namespace Report

/-- A text tells a report: it denotes the report as a value and nothing else, with its root, mode and
time, the counts, and the records in order with their diagnostics. -/
structure ToldBy (r : Report) (text : List Char) : Prop where
  denotes : ∀ value, Json.Denotes true text value ↔ value = r.toJson
  /-- The text belongs to the grammar of JSON exactly if the times in it have digits. -/
  strict : ∀ value, Json.Denotes false text value ↔ value = r.toJson ∧ r.HasDigits
  read : Json.read? (String.ofList text) = some r.toJson
  /-- No other report has a text that says the same, but for the time at which it was made, unless it
  is of the same root and mode and tells of the same survey. -/
  alone : ∀ (s : Report) (value : Json), Json.Denotes true s.text.toList value →
    r.toJson.AgreeBut "generated_at" value →
    (∀ root other : Path, root.Normal → other.Normal → r.root = root.text → s.root = other.text →
      root = other)
    ∧ r.root = s.root ∧ r.mode = s.mode ∧ r.summary.untimed = s.summary.untimed

/-- The text of a report tells it. -/
theorem toldBy_text {r : Report} (hTimes : r.InFormat) : r.ToldBy r.text.toList := by
  have hWhole : Json.Denotes true r.text.toList r.toJson := (denotes_iff hTimes).mpr rfl
  refine ⟨fun _ => denotes_iff hTimes, fun _ => denotes_strict_iff hTimes,
    Json.read?_of_denotes hWhole, fun s value hValue hAgree => ?_⟩
  obtain ⟨hRoot, hRest⟩ := eq_of_texts_agreeBut hWhole hValue hAgree
  refine ⟨fun root other hNormal hOther hText hSecond => ?_, hRoot, hRest⟩
  exact Path.text_injective hNormal hOther (hText.symm.trans (hRoot.trans hSecond))

/-- Whatever a survey ends with, the text of a report of it tells it. -/
theorem toldBy_of_run {setting : Setting} {plan : Plan} {files : FileSystem} {r : Report}
    (hRun : (Survey.run setting plan files).result = .ok r.summary) : r.ToldBy r.text.toList :=
  toldBy_text (Survey.inFormat_of_run hRun)

/-- A report that can be written is the one that is shown. -/
theorem IsWritable.map_shown {limit : Option Nat} {r : Report Raw} (h : r.IsWritable limit) :
    r.shown.map Raw.ofString = r := by
  refine toJson_injective ?_
  rw [shown, map_map, toJson_map]
  exact Json.map_eq_self 0 _ fun s hMem => (h.isText s hMem).ofString_shown

/-- A report that cannot be written is cut short before the piece that keeps it from that. It has begun
with a brace, and since more would follow it is not at its end, so that it denotes nothing. -/
theorem encoded_of_not_isWritable {limit : Option Nat} {r : Report Raw} (h : ¬r.IsWritable limit) :
    ∃ text obstacle, r.encoded limit = (Text.Utf8.encode text, some obstacle)
      ∧ ¬∃ value, Json.Denotes true text value := by
  obtain ⟨before, piece, after, obstacle, hPieces, hNot, hEncoded⟩ :=
    Json.encodePieces_of_not_isWritable fun hAll => h (isWritable_iff.mpr hAll)
  have hWhole : Json.Denotes true r.shown.text.toList
      (r.shown.toJson.mapNumbers Quantity.reread) := Json.denotes_text fun _ _ => Or.inl rfl
  rw [text, Json.text, String.toList_ofList, Json.write, shown, toJson_map, Json.pieces_map,
    hPieces, List.map_append, List.flatMap_append, List.map_cons, List.flatMap_cons] at hWhole
  refine ⟨_, obstacle, hEncoded, ?_⟩
  cases before with
  | nil =>
      obtain rfl : .layout _ = piece := (List.cons.inj hPieces).1
      exact absurd trivial hNot
  | cons first more =>
      obtain rfl : .layout _ = first := (List.cons.inj hPieces).1
      exact hWhole.not_of_append (Json.Piece.skipSpace_ne_nil hNot _)

/-- Where the file of a report can be made, the report is told in it if and only if no text in it has a
half of a pair and no integer in it has more digits than are allowed: it is then a report of strings
that the file tells. Any other report ends in trouble, and its file is left with a text that denotes
nothing. -/
theorem save_lossless_iff (limit : Option Nat) {files : FileSystem} (hHere : files.Stationed)
    {path : Path} (hPath : path.Normal) {r : Report Raw} (hTimes : r.InFormat)
    (hWritten : ∀ failure, (r.save files path limit).2 ≠ some (.file failure)) :
    ∃ place bytes text, (r.save files path limit).1.find path = .ok (.present place (.file bytes))
      ∧ Text.Utf8.decode bytes = .ok text
      ∧ ((r.save files path limit).2 = none ↔ r.IsWritable limit)
      ∧ (r.IsWritable limit → ∃ t : Report, r = t.map Raw.ofString ∧ t.ToldBy text)
      ∧ (¬r.IsWritable limit →
        (∃ obstacle, (r.save files path limit).2 = some (.unwritable obstacle))
          ∧ ¬∃ value, Json.Denotes true text value) := by
  obtain ⟨⟨place, hFind⟩, hTrouble⟩ := find_save hHere hPath hWritten
  by_cases hAll : r.IsWritable limit
  · have hEncoded := hAll.encoded
    rw [hEncoded] at hFind hTrouble
    dsimp only [Option.map_none] at hFind hTrouble
    refine ⟨place, _, r.shown.text.toList, hFind, Text.Utf8.decode_encode _,
      iff_of_true hTrouble hAll, fun _ => ⟨r.shown, hAll.map_shown.symm, ?_⟩,
      fun hNot => absurd hAll hNot⟩
    refine toldBy_text fun record hMem => ?_
    obtain ⟨raw, hRaw, rfl⟩ := List.mem_map.mp hMem
    exact hTimes raw hRaw
  · obtain ⟨text, obstacle, hEncoded, hNone⟩ := encoded_of_not_isWritable hAll
    rw [hEncoded] at hFind hTrouble
    dsimp only [Option.map_some] at hFind hTrouble
    exact ⟨place, _, text, hFind, Text.Utf8.decode_encode _,
      iff_of_false (by simp [hTrouble]) hAll, fun hIs => absurd hIs hAll,
      fun _ => ⟨⟨obstacle, hTrouble⟩, hNone⟩⟩

/-- A report with what has to be escaped, and with numbers that are large, negative and real. -/
def awkward : Report where
  root := "/a\"b/\u00e9"
  mode := "parse"
  instant := "now"
  summary := ⟨1, 0, 1,
    [⟨"\\\n.py", "\x01\u2028", Record.failure, [⟨-1, 10000000000000000000000, "\t", ""⟩],
      some "", none, .real (.finite false 4611686018427388 (-62))⟩]⟩

/-- The report of a source whose name is that of a file with a byte that is no text. -/
def broken : Report Raw :=
  let name : Raw := Raw.ofString "caf" ++ .half 0x4e9 :: Raw.ofString ".py"
  let record := (Record.fresh "" "").map Raw.ofString
  { (awkward.map Raw.ofString) with
    summary := ⟨1, 0, 1, [{ record with filename := name, filepath := name }]⟩ }

/-- A report that counts one more source than can be written with the digits that are allowed. -/
def immense : Report Raw :=
  { (awkward.map Raw.ofString) with
    summary := { (awkward.map Raw.ofString).summary with total := 10 ^ Quantity.mostDigits } }

theorem save_lossless_iff_of_half :
    let files : FileSystem := ⟨.directory [], []⟩
    let path : Path := ⟨.here, ["out", "report.json"]⟩
    (∃ place bytes text,
      ((awkward.map Raw.ofString).save files path).1.find path
        = .ok (.present place (.file bytes))
      ∧ Text.Utf8.decode bytes = .ok text ∧ Json.Denotes false text awkward.toJson)
    ∧ (broken.save files path).2.map Trouble.line = some ("UnicodeEncodeError: 'utf-8' codec "
      ++ "can't encode character '\\udce9' in position 4: surrogates not allowed")
    ∧ (immense.save files path).2 = some (.unwritable (.digits 4300))
    ∧ ∀ r, r = broken ∨ r = immense → ∃ place bytes text,
      (r.save files path).1.find path = .ok (.present place (.file bytes))
        ∧ Text.Utf8.decode bytes = .ok text ∧ ¬∃ value, Json.Denotes true text value := by
  intro files path
  have hHere : files.Stationed := rfl
  have hPath : ∀ part ∈ path.parts, Path.IsPart part := by decide
  have hNone : ((awkward.map Raw.ofString).save files path).2 = none := by decide +kernel
  have hHalf : (broken.save files path).2 = some (.unwritable (.half ⟨0x4e9, 4, 1⟩)) := by
    decide +kernel
  have hDigits : (immense.save files path).2 = some (.unwritable (.digits 4300)) := by
    decide +kernel
  have hLost {r : Report Raw} (hTimes : r.InFormat) {obstacle : Json.Obstacle}
      (hObstacle : (r.save files path).2 = some (.unwritable obstacle)) :
      ∃ place bytes text, (r.save files path).1.find path = .ok (.present place (.file bytes))
        ∧ Text.Utf8.decode bytes = .ok text ∧ ¬∃ value, Json.Denotes true text value := by
    obtain ⟨place, bytes, text, hFind, hDecode, hIff, -, hLost⟩ :=
      save_lossless_iff (some Quantity.mostDigits) hHere hPath hTimes (by simp [hObstacle])
    have hNot : ¬r.IsWritable (some Quantity.mostDigits) :=
      fun hAll => by simpa [hObstacle] using hIff.mpr hAll
    exact ⟨place, bytes, text, hFind, hDecode, (hLost hNot).2⟩
  have hTimes : (awkward.map Raw.ofString).InFormat := by
    intro record hMem
    rw [List.mem_singleton.mp hMem]
    exact ⟨by decide, by decide, by decide, Or.inr (by decide)⟩
  refine ⟨?_, by rw [hHalf]; decide +kernel, hDigits, ?_⟩
  · obtain ⟨place, bytes, text, hFind, hDecode, hIff, hTold, -⟩ :=
      save_lossless_iff (some Quantity.mostDigits) hHere hPath hTimes (by simp [hNone])
    obtain ⟨t, hSame, hTold⟩ := hTold (hIff.mp hNone)
    obtain rfl : awkward = t := by
      rw [← awkward.shown_map_ofString, hSame, t.shown_map_ofString]
    have hStrict : awkward.HasDigits := by
      intro record hMem
      rw [List.mem_singleton.mp hMem]
      trivial
    exact ⟨place, bytes, text, hFind, hDecode, (hTold.strict _).mpr ⟨rfl, hStrict⟩⟩
  · rintro r (rfl | rfl)
    · refine hLost (fun record hMem => ?_) hHalf
      rw [List.mem_singleton.mp hMem]
      exact ⟨by decide, by decide, by decide, Or.inl rfl⟩
    · exact hLost (fun record hMem => hTimes record hMem) hDigits

end Report

end SyntaxSurvey
