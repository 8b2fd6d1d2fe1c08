import Mathlib.Data.List.Forall2
import SyntaxSurvey.Proofs.Survey.Story
import SyntaxSurvey.Proofs.Text.Unbroken

/-! Telling of a summary. The account of a summary lists its failures with a reason for each. Only
an error that is blank has no reason, and it cuts the list short; no survey leaves such an error. -/

namespace SyntaxSurvey

open Text (Unbroken isBlank)

/-- Whether a line is worded as one of a list. -/
def Log.isListed (line : String) : Bool :=
  opensWith "  - " line

/-- Only failures are told in a list. -/
theorem Log.Event.isListed_text {event : Log.Event} :
    isListed event.text = true ↔ ∃ source reason, event = .failure source reason := by
  delta Event.text Event.textWith
  cases event
  case diagnosed source diagnostic =>
    dsimp only
    split <;> simp [isListed, opensWith, Graph.toString_self]
  all_goals simp [isListed, opensWith, Graph.toString_self]

namespace Record

/-- There is an error, and all of it is white space. -/
def BlankError (record : Record) : Prop :=
  ∃ error, record.error = some error ∧ error ≠ "" ∧ ∀ c ∈ error.toList, isBlank c = true

/-- A line of the log is a warning that tells why a source failed. Its reason is that of the record:
one line, which is neither empty nor too long. -/
def ToldBy (record : Record) (event : Log.Event) : Prop :=
  event.level = .warning ∧ ∃ reason, Summary.reasonFor? record = some reason
    ∧ event.text = "  - " ++ record.filepath ++ ": " ++ reason
    ∧ reason ≠ "" ∧ reason.length ≤ 200 ∧ Unbroken reason.toList

/-- An error that can be shown is not blank. -/
theorem Coherent.not_blankError {record : Record} (h : record.Coherent) : ¬record.BlankError := by
  rintro ⟨error, hError, -, hBlank⟩
  obtain ⟨-, line, hLine, -⟩ := h.shown error hError
  simp [Text.lastLine?_eq_none_iff.mpr hBlank] at hLine

end Record

namespace Summary

variable {record : Record} {records : List Record} {s : Summary}

/-- A record is without a reason if and only if its error is blank. -/
theorem reasonFor?_eq_none_iff : reasonFor? record = none ↔ record.BlankError := by
  rw [reasonFor?, Record.BlankError, Option.map_eq_none_iff]
  cases hError : record.error? with
  | none =>
      refine iff_of_false (by simp) ?_
      rintro ⟨error, hSome, hNotEmpty, -⟩
      simp [Record.error?, hSome, Option.filter, hNotEmpty] at hError
  | some error =>
      obtain ⟨hSome, hNotEmpty⟩ := Option.filter_eq_some_iff.mp hError
      simp [hSome, Text.lastLine?_eq_none_iff, bne_iff_ne.mp hNotEmpty]

/-- A number of faults is put into words on one line. -/
theorem unbroken_faults (count : Nat) :
    s!"{count} syntax errors" ≠ "" ∧ Unbroken s!"{count} syntax errors".toList := by
  have hWords : s!"{count} syntax errors" = toString count ++ " syntax errors" := rfl
  rw [hWords, Ne, String.append_eq_empty_iff, String.toList_append, Text.unbroken_append]
  exact ⟨fun hEmpty => absurd hEmpty.2 (by decide), Text.unbroken_natural count, by decide⟩

/-- What is cut off a text leaves neither an empty one nor a break. -/
theorem unbroken_take {whole : String} (h : whole ≠ "" ∧ Unbroken whole.toList) :
    let shown := String.ofList (whole.toList.take longestReason)
    shown ≠ "" ∧ shown.length ≤ 200 ∧ Unbroken shown.toList := by
  obtain ⟨hNotEmpty, hLine⟩ := h
  refine ⟨?_, ?_, ?_⟩
  · rw [Ne, ← String.toList_inj, String.toList_ofList] at hNotEmpty ⊢
    simpa [longestReason] using hNotEmpty
  · rw [String.length_ofList]
    exact List.length_take_le _ _
  · rw [String.toList_ofList]
    exact hLine.of_subset (List.take_subset _ _)

/-- A record with a reason is told by the line with it. -/
theorem toldBy_of_reasonFor? {reason : String} (h : reasonFor? record = some reason) :
    record.ToldBy (.failure record.filepath reason) := by
  refine ⟨rfl, reason, h, rfl, ?_⟩
  obtain ⟨whole, hWhole, rfl⟩ := Option.map_eq_some_iff.mp h
  apply unbroken_take
  cases hError : record.error? with
  | none =>
      rw [hError] at hWhole
      obtain rfl := Option.some.inj hWhole
      exact unbroken_faults _
  | some error =>
      rw [hError] at hWhole
      exact Text.unbroken_of_lastLine? hWhole

/-- Failures are told of one after the other, up to the first one whose error is blank. -/
theorem failureLog_cases (records : List Record) :
    ∃ told untold, records = told ++ untold
      ∧ List.Forall₂ Record.ToldBy told (failureLog records).1
      ∧ (∀ record ∈ told, ¬record.BlankError)
      ∧ (untold = [] ∧ (failureLog records).2 = none
        ∨ (∃ record rest, untold = record :: rest ∧ record.BlankError)
          ∧ (failureLog records).2 = some .blankError) := by
  induction records with
  | nil => exact ⟨[], [], rfl, .nil, nofun, Or.inl ⟨rfl, rfl⟩⟩
  | cons record records ih =>
      rw [failureLog]
      cases hReason : reasonFor? record with
      | none =>
          have hBlank := reasonFor?_eq_none_iff.mp hReason
          exact ⟨[], record :: records, rfl, .nil, nofun,
            Or.inr ⟨⟨record, records, rfl, hBlank⟩, rfl⟩⟩
      | some reason =>
          obtain ⟨told, untold, hSplit, hTold, hShown, hRest⟩ := ih
          have hFirst : ¬record.BlankError := fun hBlank => by
            simp [reasonFor?_eq_none_iff.mpr hBlank] at hReason
          refine ⟨record :: told, untold, by rw [hSplit, List.cons_append], ?_,
            List.forall_mem_cons.mpr ⟨hFirst, hShown⟩, hRest⟩
          exact .cons (toldBy_of_reasonFor? hReason) hTold

/-- The list is cut short, by an index that is out of range, if and only if there is a blank error.
-/
theorem failureLog_kind_iff :
    (failureLog records).2.map Trouble.kind = some "IndexError" ↔
      ∃ record ∈ records, record.BlankError := by
  obtain ⟨told, untold, hSplit, -, hShown, ⟨rfl, hNone⟩ | ⟨⟨blank, rest, rfl, hBlank⟩, hSome⟩⟩ :=
    failureLog_cases records
  · rw [hNone, hSplit, List.append_nil]
    exact iff_of_false (by simp) fun ⟨record, hMem, hBlank⟩ => hShown record hMem hBlank
  · rw [hSome]
    refine iff_of_true rfl ⟨blank, ?_, hBlank⟩
    rw [hSplit]
    exact List.mem_append_right _ (List.mem_cons_self ..)

/-- Without blank errors all failures are told of. -/
theorem failureLog_of_not_blankError (h : ∀ record ∈ records, ¬record.BlankError) :
    (failureLog records).2 = none
      ∧ List.Forall₂ Record.ToldBy records (failureLog records).1 := by
  obtain ⟨told, untold, hSplit, hTold, -, ⟨rfl, hNone⟩ | ⟨⟨blank, rest, rfl, hBlank⟩, -⟩⟩ :=
    failureLog_cases records
  · rw [List.append_nil] at hSplit
    exact ⟨hNone, hSplit ▸ hTold⟩
  · refine absurd hBlank (h blank ?_)
    rw [hSplit]
    exact List.mem_append_right _ (List.mem_cons_self ..)

theorem isListed_of_mem_failureLog {event : Log.Event} (hMem : event ∈ (failureLog records).1) :
    Log.isListed event.text = true := by
  induction records with
  | nil => cases hMem
  | cons record records ih =>
      rw [failureLog] at hMem
      split at hMem
      · cases hMem
      · rcases List.mem_cons.mp hMem with rfl | hLater
        · exact Log.Event.isListed_text.mpr ⟨_, _, rfl⟩
        · exact ih hLater

/-- The log of the failures consists of lines for them. -/
theorem filter_isListed_failureLog :
    (failureLog records).1.filter (fun event => Log.isListed event.text)
      = (failureLog records).1 :=
  List.filter_eq_self.mpr fun _ hMem => isListed_of_mem_failureLog hMem

/-- The account of a summary is its totals, which are not worded as a list, and the list of its
failures. -/
theorem account_eq (s : Summary) (directory : Option Path) :
    ∃ totals : Log, totals.filter (fun event => Log.isListed event.text) = []
      ∧ s.account directory = (totals ++ (failureLog s.failures).1, (failureLog s.failures).2) := by
  have hUnlisted {totals : Log} (h : ∀ event ∈ totals, ∀ source reason,
      event ≠ .failure source reason) :
      totals.filter (fun event => Log.isListed event.text) = [] := by
    rw [List.filter_eq_nil_iff]
    intro event hMem hListed
    obtain ⟨source, reason, hSame⟩ := Log.Event.isListed_text.mp hListed
    exact h event hMem source reason hSame
  unfold account
  dsimp only
  split
  · rename_i hNone
    rw [List.isEmpty_iff.mp hNone]
    refine ⟨_, hUnlisted ?_, by rw [failureLog, List.append_nil]⟩
    cases directory <;> simp
  · refine ⟨_, hUnlisted ?_, Prod.ext (List.append_cons ..) rfl⟩
    cases directory <;> simp

/-- What cuts the list of failures short cuts the account short, and nothing else does. -/
theorem account_trouble (s : Summary) (directory : Option Path) :
    (s.account directory).2 = (failureLog s.failures).2 := by
  obtain ⟨totals, -, hAccount⟩ := s.account_eq directory
  rw [hAccount]

/-- An account lists the failures and nothing else. -/
theorem filter_isListed_account (s : Summary) (directory : Option Path) :
    (s.account directory).1.filter (fun event => Log.isListed event.text)
      = (failureLog s.failures).1 := by
  obtain ⟨totals, hTotals, hAccount⟩ := s.account_eq directory
  rw [hAccount, List.filter_append, hTotals, List.nil_append, filter_isListed_failureLog]

/-- The account of a summary comes to its end. It lists the failures, each with its reason, in the
order of the records, and there are as many as the summary has counted. -/
structure Accounted (s : Summary) (directory : Option Path) : Prop where
  whole : (s.account directory).2 = none
  told : List.Forall₂ Record.ToldBy (s.records.filter fun record => !record.succeeded)
    ((s.account directory).1.filter fun event => Log.isListed event.text)
  count : ((s.account directory).1.filter fun event => Log.isListed event.text).length = s.failed

/-- The account comes to its end exactly if no failure has a blank error. -/
theorem accounted_iff (h : s.Mirrors) (directory : Option Path) :
    s.Accounted directory ↔ ∀ record ∈ s.failures, ¬record.BlankError := by
  constructor
  · intro hAccounted record hMem hBlank
    have hCut := failureLog_kind_iff.mpr ⟨record, hMem, hBlank⟩
    rw [← s.account_trouble directory, hAccounted.whole] at hCut
    cases hCut
  · intro hShown
    obtain ⟨hWhole, hTold⟩ := failureLog_of_not_blankError hShown
    refine ⟨?_, ?_, ?_⟩
    · rw [account_trouble, hWhole]
    · rw [filter_isListed_account]
      exact hTold
    · rw [filter_isListed_account, ← hTold.length_eq, h.failed]

theorem foldl_add_records (s : Summary) (records : List Record) :
    (records.foldl add s).records = s.records ++ records := by
  induction records generalizing s with
  | nil => simp
  | cons record records ih => simp [ih, add]

theorem Mirrors.foldl_add (h : s.Mirrors) (records : List Record) :
    (records.foldl Summary.add s).Mirrors := by
  induction records generalizing s with
  | nil => exact h
  | cons record records ih => exact ih (h.add record)

/-- The failures of a summary are the records in it that did not succeed. -/
theorem mem_failures_foldl_add :
    record ∈ (records.foldl add empty).failures ↔ record ∈ records ∧ record.succeeded = false := by
  rw [failures, foldl_add_records, List.mem_filter, Bool.not_eq_true']
  rfl

/-- The account of coherent records is no trouble. -/
theorem account_eq_none {summary : Summary} (directory : Option Path)
    (h : ∀ record ∈ summary.records, record.Coherent) : (summary.account directory).2 = none := by
  rw [account_trouble]
  exact (failureLog_of_not_blankError fun record hMem =>
    (h record (List.mem_of_mem_filter hMem)).not_blankError).1

end Summary

namespace Survey

/-- The records of a survey are coherent. -/
theorem coherent_of_run {setting : Setting} {plan : Plan} {files : FileSystem}
    {summary : Summary} (hRun : (run setting plan files).result = .ok summary) :
    ∀ record ∈ summary.records, record.Coherent := by
  obtain ⟨paths, -, rfl, -, -⟩ := run_stage hRun
  intro record hMem
  obtain ⟨index, hIndex⟩ := List.mem_iff_getElem?.mp hMem
  obtain ⟨path, image, -, rfl, -⟩ := record_of_stage hIndex
  exact (coherent_added setting plan _ path).withImage image

/-- Whatever records are added to a summary, its account is cut short, by an index that is out of
range, exactly if a failure has a blank error; otherwise each failure is told in its turn. No survey
ends with such a failure, whatever the files are and in either mode, so all that failed is told of.
-/
theorem failures_accounted (setting : Setting) (plan : Plan) (files : FileSystem) :
    (∀ (records : List Record) (directory : Option Path),
      let s := records.foldl Summary.add .empty
      ((s.account directory).2.map Trouble.kind = some "IndexError" ↔
        ∃ record ∈ records, record.succeeded = false ∧ record.BlankError) ∧
      (s.Accounted directory ↔
        ¬∃ record ∈ records, record.succeeded = false ∧ record.BlankError) ∧
      s.records = records) ∧
    ∀ summary, (run setting plan files).result = .ok summary →
      ∀ directory, summary.Accounted directory := by
  refine ⟨fun records directory => ?_, fun summary hRun directory => ?_⟩
  · have hMirrors := Summary.mirrors_empty.foldl_add records
    refine ⟨?_, ?_, Summary.foldl_add_records .empty records⟩
    · rw [Summary.account_trouble, Summary.failureLog_kind_iff]
      simp only [Summary.mem_failures_foldl_add, and_assoc]
    · rw [Summary.accounted_iff hMirrors]
      simp only [Summary.mem_failures_foldl_add, not_exists, not_and, and_imp]
  · have hMirrors : summary.Mirrors := by
      obtain ⟨paths, -, rfl, -, -⟩ := run_stage hRun
      exact mirrors_stage _
    rw [Summary.accounted_iff hMirrors]
    intro record hMem
    exact (coherent_of_run hRun record (List.mem_of_mem_filter hMem)).not_blankError

/-- A source that is no text fails, and it is told why. -/
theorem failures_accounted_of_undecodable :
    let plan := Plan.asked "repo" .images ".py" (some "out") (.real Image.defaultScale)
    let files : FileSystem :=
      ⟨.directory [("repo", .directory [("a.py", .file [0xff])])], []⟩
    ∃ summary, (run mirror plan files).result = .ok summary ∧ summary.failed = 1
      ∧ summary.Accounted (some (.ofString "out")) := by
  intro plan files
  have hFailed : (run mirror plan files).result.toOption.map Summary.failed = some 1 := by
    decide +kernel
  cases hRun : (run mirror plan files).result with
  | error trouble => simp [hRun, Except.toOption] at hFailed
  | ok summary =>
      rw [hRun] at hFailed
      exact ⟨summary, rfl, Option.some.inj hFailed,
        (failures_accounted mirror plan files).2 summary hRun _⟩

end Survey

end SyntaxSurvey
