import SyntaxSurvey.Proofs.Summary
import SyntaxSurvey.Proofs.Survey.Opening

/-! Stages of a survey, in either mode and whatever the file system holds. A stage is the survey after
the turns of its first sources. What a turn adds to the summary and to the log is told here once, so
that nothing about stages has to tell the modes apart again. -/

namespace SyntaxSurvey

open Log (From)

namespace Survey

def added (setting : Setting) (plan : Plan) (s : Survey) (path : Path) : Record :=
  match plan.imageDirectory? with
  | none => (reading setting s.files path).record
  | some directory => (s.saving setting plan directory path).record

/-- The survey before the first turn. -/
def outset (plan : Plan) (files : FileSystem) (paths : List Path) : Survey :=
  match plan.imageDirectory? with
  | none =>
    begin [.enumerated paths.length plan.root, .found paths.length plan.suffix plan.root] files
  | some directory => opening plan directory files paths

/-- The survey after so many turns. -/
def stage (setting : Setting) (plan : Plan) (files : FileSystem) (paths : List Path)
    (count : Nat) : Survey :=
  (outset plan files paths).visitAll setting plan (paths.take count)

variable {setting : Setting} {plan : Plan} {files : FileSystem} {paths : List Path}

/-- A survey tells of nothing that it does not tell of at some stage, also when it cannot begin. -/
theorem mem_run_log {event : Log.Event} (hMem : event ∈ (run setting plan files).log) :
    ∃ paths count, event ∈ (stage setting plan files paths count).log := by
  rw [run] at hMem
  cases hSources : Discovery.sources files plan.root plan.suffix with
  | error trouble => simp [hSources] at hMem
  | ok paths =>
      cases hPlan : plan.imageDirectory? with
      | none =>
          simp only [hSources, hPlan, complete] at hMem
          refine ⟨paths, paths.length, ?_⟩
          rwa [stage, List.take_length, outset, hPlan]
      | some directory =>
          cases hMake : files.makeDirectories directory with
          | mk made trouble =>
              cases trouble with
              | some failure =>
                  simp only [hSources, hPlan, hMake] at hMem
                  refine ⟨paths, 0, ?_⟩
                  rwa [stage, List.take_zero, outset, hPlan]
              | none =>
                  simp only [hSources, hPlan, hMake, complete] at hMem
                  refine ⟨paths, paths.length, ?_⟩
                  rw [stage, List.take_length, outset, hPlan]
                  simpa only [opening, hMake] using hMem

/-- A survey that ends with a summary has come through all its stages. -/
theorem run_stage {summary : Summary} (hRun : (run setting plan files).result = .ok summary) :
    ∃ paths, Discovery.sources files plan.root plan.suffix = .ok paths
      ∧ summary = (stage setting plan files paths paths.length).summary
      ∧ (run setting plan files).log = (stage setting plan files paths paths.length).log
      ∧ (run setting plan files).files = (stage setting plan files paths paths.length).files := by
  simp only [stage, List.take_length, outset]
  cases hPlan : plan.imageDirectory? with
  | none =>
      rw [run] at hRun ⊢
      cases hSources : Discovery.sources files plan.root plan.suffix with
      | error trouble => simp [hSources] at hRun
      | ok paths =>
          simp only [hSources, hPlan, complete, Except.ok.injEq] at hRun ⊢
          exact ⟨paths, rfl, hRun.symm, rfl, rfl⟩
  | some directory =>
      obtain ⟨paths, -, hSources, -, hSummary, hLog, hFiles⟩ := run_ok hPlan hRun
      exact ⟨paths, hSources, hSummary, hLog, hFiles⟩

/-- One stage further is one turn further. -/
theorem stage_succ {count : Nat} {path : Path} (hPath : paths[count]? = some path) :
    stage setting plan files paths (count + 1)
      = (stage setting plan files paths count).visit setting plan path := by
  rw [stage, stage, visitAll, visitAll, List.take_add_one, hPath, List.foldl_append]
  rfl

/-- After the last turn nothing more happens. -/
theorem stage_of_length_le {count : Nat} (hCount : paths.length ≤ count) :
    stage setting plan files paths (count + 1) = stage setting plan files paths count := by
  rw [stage, stage, List.take_of_length_le hCount, List.take_of_length_le (by omega)]

/-- A stage is the one before or comes from it by one turn. -/
theorem stage_cases (setting : Setting) (plan : Plan) (files : FileSystem) (paths : List Path)
    (count : Nat) :
    stage setting plan files paths (count + 1) = stage setting plan files paths count
      ∨ ∃ path, paths[count]? = some path ∧ stage setting plan files paths (count + 1)
        = (stage setting plan files paths count).visit setting plan path := by
  cases hPath : paths[count]? with
  | none => exact Or.inl (stage_of_length_le (List.getElem?_eq_none_iff.mp hPath))
  | some path => exact Or.inr ⟨path, rfl, stage_succ hPath⟩

/-- A turn adds its record to the summary, and perhaps takes away the image of an earlier one. -/
theorem visit_summary (setting : Setting) (plan : Plan) (s : Survey) (path : Path) :
    ∃ summary, (summary = s.summary ∨ ∃ index, summary = s.summary.dropImage index)
      ∧ (s.visit setting plan path).summary = summary.add (added setting plan s path) := by
  rw [added]
  cases hPlan : plan.imageDirectory? with
  | none =>
      rw [visit]
      simp only [hPlan]
      exact ⟨s.summary, Or.inl rfl, rfl⟩
  | some directory =>
      rw [visit_eq hPlan]
      cases (s.saving setting plan directory path).path with
      | none => exact ⟨s.summary, Or.inl rfl, rfl⟩
      | some image =>
          simp only [close, own, disown]
          cases s.owners.lookup image.name with
          | none => exact ⟨s.summary, Or.inl rfl, rfl⟩
          | some index => exact ⟨s.summary.dropImage index, Or.inr ⟨index, rfl⟩, rfl⟩

/-- What the survey itself says in a turn: whose turn it is, perhaps that an image was overwritten,
and how the record came out. -/
theorem mem_visit_log {s : Survey} {path : Path} {event : Log.Event}
    (hEvent : event ∈ (s.visit setting plan path).log) (hChannel : event.channel = .survey) :
    event ∈ s.log ∨ (∃ index, event = .processing index path)
      ∨ (∃ image previous, event = .overwritten image path previous)
      ∨ event = outcome (added setting plan s path) (setting.parsing path) := by
  have hReading := Reading.from_ofFile setting.table s.files path (setting.parsing path)
  rw [added]
  cases hPlan : plan.imageDirectory? with
  | none =>
      rw [visit] at hEvent
      simp only [hPlan, close, List.mem_append, List.mem_cons, List.not_mem_nil, or_false] at hEvent
      rcases hEvent with (hOld | rfl | hRead) | rfl
      · exact Or.inl hOld
      · exact Or.inr (Or.inl ⟨_, rfl⟩)
      · exact absurd (hChannel.symm.trans (hReading event hRead)) (by decide)
      · exact Or.inr (Or.inr (Or.inr rfl))
  | some directory =>
      have hSaving : From .rendering (s.saving setting plan directory path).log :=
        Image.from_save _ _ _ _ _ _ _ _
      rw [visit_log_eq hPlan] at hEvent
      simp only [foretold, List.mem_append, List.mem_cons, List.not_mem_nil, or_false] at hEvent
      rcases hEvent with ((hOld | (rfl | hRead) | hSaved) | hTold) | rfl
      · exact Or.inl hOld
      · exact Or.inr (Or.inl ⟨_, rfl⟩)
      · exact absurd (hChannel.symm.trans (hReading event hRead)) (by decide)
      · exact absurd (hChannel.symm.trans (hSaving event hSaved)) (by decide)
      · rcases overtaking_cases s (s.turn setting plan directory path)
          with hNone | ⟨image, previous, hImage⟩
        · rw [hNone] at hTold
          cases hTold
        · rw [hImage] at hTold
          obtain rfl := List.mem_singleton.mp hTold
          exact Or.inr (Or.inr (Or.inl ⟨image, previous, rfl⟩))
      · exact Or.inr (Or.inr (Or.inr rfl))

def twinsDrawn : Plan :=
  Plan.asked "repo" .images ".py" (some "out") (.real Image.defaultScale)

theorem exists_summary_of_twins : ∃ summary, (run mirror twinsDrawn twins).result = .ok summary :=
  exists_ok_of_toBool (by decide +kernel)

end Survey

end SyntaxSurvey
