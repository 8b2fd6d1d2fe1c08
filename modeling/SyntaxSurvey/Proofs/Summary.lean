import SyntaxSurvey.Summary

/-! Counters of a summary. They are taken when a record is added, and the records of a summary can be
written to after that. What is written to a record later is not counted again, so the counters say what
the records say now only if no status is among it. -/

namespace SyntaxSurvey.Summary

/-- The counters of a summary say what its records say now, and its failures are those records that
are without success, in their order. -/
structure Mirrors (s : Summary) : Prop where
  total : s.total = s.records.length
  succeeded : s.succeeded = s.records.countP Record.succeeded
  failed : s.failed = s.failures.length
  whole : s.succeeded + s.failed = s.total
  failures : s.failures = s.records.filter fun record => decide (record.status ≠ Record.success)

def statuses (s : Summary) : List String :=
  s.records.map Record.status

def amend (s : Summary) (index : Nat) (write : Record → Record) : Summary :=
  { s with records := s.records.modify index write }

/-- One change of a summary: a record is added, or something but its status is written to a record
that was added before. -/
inductive Change : Summary → Summary → Prop where
  | add (s : Summary) (record : Record) : Change s (s.add record)
  | amend (s : Summary) (index : Nat) (write : Record → Record)
      (keeps : ∀ record, s.records[index]? = some record →
        (write record).status = record.status) :
      Change s (s.amend index write)

/-- Any number of changes of a summary. -/
inductive Grows : Summary → Summary → Prop where
  | refl (s : Summary) : Grows s s
  | step {s middle later : Summary} (prior : Grows s middle) (last : Change middle later) :
      Grows s later

variable {s middle later : Summary}

theorem Grows.trans (left : Grows s middle) (right : Grows middle later) : Grows s later := by
  induction right with
  | refl => exact left
  | step prior last ih => exact .step ih last

theorem change_dropImage (s : Summary) (index : Nat) : Change s (s.dropImage index) :=
  .amend s index (fun record => { record with imagePath := none }) fun _ _ => rfl

/-- An amendment that keeps the status of its record keeps all. -/
theorem statuses_amend {index : Nat} {write : Record → Record}
    (keeps : ∀ record, s.records[index]? = some record → (write record).status = record.status) :
    (s.amend index write).statuses = s.statuses := by
  apply List.ext_getElem?
  intro other
  simp only [statuses, amend, List.getElem?_map, List.getElem?_modify]
  cases hRecord : s.records[other]? with
  | none => rfl
  | some record =>
      by_cases hIndex : index = other
      · subst hIndex
        simp [keeps record hRecord]
      · simp [hIndex]

/-- Whatever changes, the records that were there keep their status. -/
theorem Change.keeps_statuses (change : Change s later) : s.statuses <+: later.statuses := by
  cases change with
  | add record => exact ⟨[record.status], by simp [statuses, Summary.add]⟩
  | amend index write keeps => exact ⟨[], by rw [List.append_nil, statuses_amend keeps]⟩

/-- However a summary grows, the statuses that were counted stay. -/
theorem Grows.keeps_statuses (grows : Grows s later) : s.statuses <+: later.statuses := by
  induction grows with
  | refl => exact List.prefix_refl _
  | step prior last ih => exact ih.trans last.keeps_statuses

theorem countP_succeeded (s : Summary) :
    s.records.countP Record.succeeded = s.statuses.countP (· == Record.success) := by
  rw [statuses, List.countP_map]
  rfl

/-- Failures are counted by status. -/
theorem length_failures (s : Summary) :
    s.failures.length = s.statuses.countP (· != Record.success) := by
  rw [statuses, List.countP_map, failures, ← List.countP_eq_length_filter]
  rfl

theorem failures_eq (s : Summary) :
    s.failures = s.records.filter fun record => decide (record.status ≠ Record.success) := by
  unfold failures
  congr 1
  funext record
  rw [Bool.eq_iff_iff]
  simp [Record.succeeded]

/-- All that counters mirror is in the statuses of the records. -/
theorem mirrors_of_statuses (hTotal : s.total = s.statuses.length)
    (hSucceeded : s.succeeded = s.statuses.countP (· == Record.success))
    (hFailed : s.failed = s.statuses.countP (· != Record.success)) : s.Mirrors where
  total := by rw [hTotal, statuses, List.length_map]
  succeeded := by rw [hSucceeded, countP_succeeded]
  failed := by rw [hFailed, length_failures]
  whole := by
    rw [hTotal, hSucceeded, hFailed, List.length_eq_countP_add_countP (· == Record.success)]
    congr 2
    funext status
    rw [Bool.eq_iff_iff]
    simp
  failures := s.failures_eq

theorem mirrors_empty : empty.Mirrors :=
  mirrors_of_statuses rfl rfl rfl

/-- Counters mirror the records after an amendment that keeps the status. -/
theorem Mirrors.amend (h : s.Mirrors) {index : Nat} {write : Record → Record}
    (keeps : ∀ record, s.records[index]? = some record → (write record).status = record.status) :
    (s.amend index write).Mirrors := by
  have hSame := statuses_amend keeps
  apply mirrors_of_statuses
  · rw [hSame, statuses, List.length_map]
    exact h.total
  · rw [hSame, ← countP_succeeded]
    exact h.succeeded
  · rw [hSame, ← length_failures]
    exact h.failed

theorem Mirrors.add (h : s.Mirrors) (record : Record) : (s.add record).Mirrors := by
  have hStatuses : (s.add record).statuses = s.statuses ++ [record.status] := by
    simp [statuses, Summary.add]
  apply mirrors_of_statuses
  · rw [hStatuses, List.length_append, statuses, List.length_map, ← h.total]
    rfl
  · rw [hStatuses, List.countP_append, ← countP_succeeded, ← h.succeeded, List.countP_singleton]
    change (if record.succeeded then s.succeeded + 1 else s.succeeded)
      = s.succeeded + if record.succeeded then 1 else 0
    split <;> rfl
  · rw [hStatuses, List.countP_append, ← length_failures, ← h.failed, List.countP_singleton]
    change (if record.succeeded then s.failed else s.failed + 1)
      = s.failed + if !record.succeeded then 1 else 0
    cases record.succeeded <;> rfl

/-- Counters mirror the records after every change. -/
theorem Mirrors.change (h : s.Mirrors) (change : Change s later) : later.Mirrors := by
  cases change with
  | add record => exact h.add record
  | amend index write keeps => exact h.amend keeps

/-- Whatever is added and written, in whatever order, the counters mirror the records. -/
theorem Mirrors.grows (h : s.Mirrors) (grows : Grows s later) : later.Mirrors := by
  induction grows with
  | refl => exact h
  | step prior last ih => exact ih.change last

end SyntaxSurvey.Summary
