import SyntaxSurvey.Proofs.Grammar.LineEnd
import SyntaxSurvey.Proofs.Parser.Escape
import SyntaxSurvey.Reading

/-! Texts that cannot be parsed to their end because a fault is not recorded. -/

open SyntaxSurvey.Grammar SyntaxSurvey.Parser SyntaxSurvey.Parser.Standing

namespace SyntaxSurvey

/-- Wherever the parser resumes, an end of the text lies ahead of it. -/
theorem Parser.Standing.ResumesAt.ahead_suffix {t : Table} {s : Standing} {text : String}
    {count : Nat} (resumes : ResumesAt t text count s) : s.ahead <:+ text.toList := by
  induction resumes with
  | opening => exact List.suffix_refl _
  | again prior course pause inside ih =>
      exact (pause.shorter.1.trans course.shorter.1).trans ih

/-- A remark that ends a text of Python has no line feed after it. -/
theorem Parser.Standing.EndsInRemark.getLast?_ne {start : Python.Start} {s : Standing}
    {text : String} {count : Nat} (resumes : ResumesAt (Python.table start) text count s)
    (remark : s.EndsInRemark (Python.table start)) : text.toList.getLast? ≠ some '\n' := by
  obtain ⟨tokens, final, lexeme, top, hCourse, hTakes, hKind, hRemark⟩ := remark
  have hWhole := Scanner.chars_append_rest hTakes.scanned
  have hRest : lexeme.rest = [] := by
    rcases Python.newline_or_last hTakes.scanned hKind with hFeed | hRest
    · exact absurd hFeed hRemark
    · exact hRest
  obtain ⟨before, hText⟩ := hCourse.shorter.1.trans resumes.ahead_suffix
  rw [← hText, ← hWhole, hRest, List.append_nil,
    List.getLast?_append_of_ne_nil _ (Scanner.chars_ne_nil hTakes.scanned)]
  intro hLast
  exact hRemark (List.mem_of_getLast? hLast)

/-- What is read from a source ends in a line feed. -/
theorem Document.getLast?_of_read {bytes : List UInt8} {text : String}
    (h : Document.read bytes = .ok text) : text.toList.getLast? = some '\n' := by
  unfold Document.read at h
  cases hDecode : Text.Utf8.decode (Document.withoutMark bytes) with
  | error defect => simp [hDecode, Except.map] at h
  | ok cs =>
      simp only [hDecode, Except.map, Except.ok.injEq] at h
      rw [← h, String.toList_ofList, Document.terminated]
      split
      · assumption
      · simp

/-- The error of a reading whose file could be read and decoded is a fault that left the parser. -/
theorem Reading.ofText_error {t : Table} {path : Path} {record : Record} {text : String}
    (none : record.error = none) :
    (Reading.ofText t path record text).record.error.isSome ↔
      ∃ fault, ((Collector.fresh path.text Collector.defaultCap).parse t text).1 =
        .escaped fault := by
  unfold Reading.ofText
  dsimp only
  split
  · rename_i fault hOutcome
    simp [hOutcome, Reading.interrupted, Record.stoppedBy]
  · rename_i tree hOutcome
    simp [hOutcome, none]
  · rename_i hOutcome
    simp [hOutcome, none]

namespace Collector

/-- A fault leaves the collector exactly if some stretch that the parser comes to, with room for its
faults, ends in one that is no syntax error. -/
theorem parse_eq_escaped_iff {t : Table} {text : String} {c : Collector} {fault : Fault} :
    (c.parse t text).1 = .escaped fault ↔
      ∃ (count : Nat) (s : Standing), (count = 0 ∨ (c.diagnostics.length : Int) + count < c.cap) ∧
        ResumesAt t text count s ∧ Escapes t s fault := by
  rw [parse, drive_eq_escaped_iff]
  constructor
  · rintro ⟨hEscaped, hFits⟩
    obtain ⟨s, hResumes, hEscapes⟩ := outcome_eq_escaped_iff.mp hEscaped
    rw [← List.length_eq_zero_iff] at hFits
    exact ⟨_, s, hFits, hResumes, hEscapes⟩
  · rintro ⟨count, s, hFits, hResumes, hEscapes⟩
    obtain ⟨hOutcome, hLength⟩ := hResumes.outcome_eq
    have hAttempt := hEscapes.attempt_eq hResumes.anew
    have hNot := hEscapes.not_syntactic
    rw [hAttempt, Attempt.outcome, if_neg (by simp [hNot])] at hOutcome
    rw [hAttempt, Attempt.faults, if_neg (by simp [hNot]), List.length_nil, Nat.add_zero]
      at hLength
    rw [← List.length_eq_zero_iff, hLength]
    exact ⟨hOutcome, hFits⟩

/-- A fault leaves the parser unrecorded if and only if parsing goes on, after some recorded faults
that the cap allows, to a closing bracket for which no bracket was opened since, or to a remark that
stands for a line end. The latter needs a text without a line feed at its end, so for a file that
can be read only the bracket is left. -/
theorem fault_escapes_iff (start : Python.Start) :
    let t := Python.table start
    (∀ (c : Collector) (text : String) (fault : Fault),
      (c.parse t text).1 = .escaped fault ↔
        ∃ (count : Nat) (s : Standing),
          (count = 0 ∨ (c.diagnostics.length : Int) + count < c.cap) ∧
          ResumesAt t text count s ∧
          (fault = .unbalancedBracket ∧ s.ClosesUnopened t ∨
            fault = .remarkAtEnd ∧ s.EndsInRemark t)) ∧
    (∀ (text : String) (count : Nat) (s : Standing), ResumesAt t text count s →
      s.EndsInRemark t → text.toList.getLast? ≠ some '\n') ∧
    (∀ (files : FileSystem) (path : Path) (took : Duration) (bytes : List UInt8) (text : String),
      files.read path = .ok bytes → Document.read bytes = .ok text →
      ((Reading.ofFile t files path took).record.error.isSome ↔
        ∃ (count : Nat) (s : Standing), (count = 0 ∨ (count : Int) < defaultCap) ∧
          ResumesAt t text count s ∧ s.ClosesUnopened t)) := by
  intro t
  refine ⟨fun c text fault => parse_eq_escaped_iff, fun text count s hResumes hRemark =>
    hRemark.getLast?_ne hResumes, ?_⟩
  intro files path took bytes text hBytes hText
  rw [Reading.ofFile, hBytes]
  dsimp only
  rw [hText]
  dsimp only
  rw [Reading.ofText_error rfl]
  constructor
  · rintro ⟨fault, hEscaped⟩
    obtain ⟨count, s, hFits, hResumes, hEscapes⟩ := parse_eq_escaped_iff.mp hEscaped
    refine ⟨count, s, by simpa [fresh] using hFits, hResumes, ?_⟩
    rcases hEscapes with ⟨_, hCloses⟩ | ⟨_, hRemark⟩
    · exact hCloses
    · exact absurd (Document.getLast?_of_read hText) (hRemark.getLast?_ne hResumes)
  · rintro ⟨count, s, hFits, hResumes, hCloses⟩
    exact ⟨.unbalancedBracket, parse_eq_escaped_iff.mpr
      ⟨count, s, by simpa [fresh] using hFits, hResumes, .inl ⟨rfl, hCloses⟩⟩⟩

end Collector

end SyntaxSurvey
