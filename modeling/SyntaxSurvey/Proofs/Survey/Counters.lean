import SyntaxSurvey.Proofs.Survey.Stage

/-! Counters during a survey. A turn writes to an earlier record only to take its image away, so at
every stage the counters mirror the records, and no record changes its status once it is counted. -/

namespace SyntaxSurvey.Survey

open Summary (Grows)

variable {setting : Setting} {plan : Plan} {files : FileSystem} {paths : List Path}

theorem visit_grows (s : Survey) (path : Path) :
    Grows s.summary (s.visit setting plan path).summary := by
  obtain ⟨summary, hSummary, hVisit⟩ := visit_summary setting plan s path
  rw [hVisit]
  rcases hSummary with rfl | ⟨index, rfl⟩
  · exact .step (.refl _) (.add _ _)
  · exact .step (.step (.refl _) (Summary.change_dropImage _ index)) (.add _ _)

theorem stage_succ_grows (count : Nat) :
    Grows (stage setting plan files paths count).summary
      (stage setting plan files paths (count + 1)).summary := by
  rcases stage_cases setting plan files paths count with hSame | ⟨path, -, hVisit⟩
  · rw [hSame]
    exact .refl _
  · rw [hVisit]
    exact visit_grows _ path

/-- From stage to stage the summary grows. -/
theorem stage_grows {count later : Nat} (hLater : count ≤ later) :
    Grows (stage setting plan files paths count).summary
      (stage setting plan files paths later).summary := by
  induction hLater with
  | refl => exact .refl _
  | step hPrior ih => exact ih.trans (stage_succ_grows _)

theorem summary_outset (plan : Plan) (files : FileSystem) (paths : List Path) :
    (outset plan files paths).summary = .empty := by
  rw [outset]
  cases plan.imageDirectory? <;> rfl

/-- After every turn the counters mirror the records. -/
theorem mirrors_stage (count : Nat) :
    (stage setting plan files paths count).summary.Mirrors := by
  have hFirst : (stage setting plan files paths 0).summary = .empty :=
    summary_outset plan files paths
  have hGrows : Grows .empty (stage setting plan files paths count).summary :=
    hFirst ▸ stage_grows (Nat.zero_le count)
  exact Summary.mirrors_empty.grows hGrows

theorem total_visit (s : Survey) (path : Path) :
    (s.visit setting plan path).summary.total = s.summary.total + 1 := by
  obtain ⟨summary, hSummary, hVisit⟩ := visit_summary setting plan s path
  rw [hVisit]
  rcases hSummary with rfl | ⟨index, rfl⟩ <;> rfl

/-- After so many turns as many sources are counted. -/
theorem total_stage {count : Nat} (hCount : count ≤ paths.length) :
    (stage setting plan files paths count).summary.total = count := by
  induction count with
  | zero => exact congrArg Summary.total (summary_outset plan files paths)
  | succ count ih =>
      rw [stage_succ (List.getElem?_eq_getElem hCount), total_visit, ih (by omega)]

/-- How a survey has counted its sources when it ends with a summary. -/
structure Counted (setting : Setting) (plan : Plan) (files : FileSystem) (paths : List Path)
    (summary : Summary) : Prop where
  discovered : Discovery.sources files plan.root plan.suffix = .ok paths
  last : summary = (stage setting plan files paths paths.length).summary
  total : summary.total = paths.length
  /-- Each turn counts one source. -/
  each : ∀ count ≤ paths.length, (stage setting plan files paths count).summary.total = count
  /-- After every turn the counters say what the records say then. -/
  mirrors : ∀ count, (stage setting plan files paths count).summary.Mirrors
  /-- No turn changes the status of a record that was counted before. -/
  settled : ∀ count later, count ≤ later →
    (stage setting plan files paths count).summary.statuses
      <+: (stage setting plan files paths later).summary.statuses

/-- Whatever is added to a summary and written to its records, its counters mirror its records as long
as no status is written. In a survey of either mode this is so after every turn, whatever comes of the
sources, and in the end every source that was discovered has been counted. -/
theorem counters_mirror_records (setting : Setting) (plan : Plan) (files : FileSystem) :
    (∀ s, Grows .empty s → s.Mirrors)
    ∧ ∀ summary, (run setting plan files).result = .ok summary →
      ∃ paths, Counted setting plan files paths summary := by
  refine ⟨fun s hGrows => Summary.mirrors_empty.grows hGrows, fun summary hRun => ?_⟩
  obtain ⟨paths, hSources, hSummary, -, -⟩ := run_stage hRun
  refine ⟨paths, hSources, hSummary, ?_, fun count hCount => total_stage hCount, mirrors_stage,
    fun count later hLater => (stage_grows hLater).keeps_statuses⟩
  rw [hSummary, total_stage (Nat.le_refl _)]

theorem counters_mirror_records_of_twins :
    ∃ summary paths, (run mirror twinsDrawn twins).result = .ok summary
      ∧ Counted mirror twinsDrawn twins paths summary := by
  obtain ⟨summary, hRun⟩ := exists_summary_of_twins
  obtain ⟨paths, hCounted⟩ := (counters_mirror_records mirror twinsDrawn twins).2 summary hRun
  exact ⟨summary, paths, hRun, hCounted⟩

end SyntaxSurvey.Survey
