import SyntaxSurvey.Proofs.Number.Overflow
import SyntaxSurvey.Proofs.Survey.Coherence

/-! Scales of a survey. Trees can only be drawn at a scale whose resolution is a number. At any
other one every source of a survey that draws is a failure. -/

namespace SyntaxSurvey

open Number (Binary64 Quantity)
open Number.Binary64 (limit)

variable {scale : Binary64}

namespace Graph

/-- A scale at which trees can be drawn: a positive number whose resolution is within the range of
the format. -/
def Usable (scale : Binary64) : Prop :=
  ∃ value, scale.value? = some value ∧ 0 < value ∧ 96 * value < limit

/-- A scale whose sign is right has a resolution if and only if it is usable. -/
theorem exists_roundedMultiple_iff (h : scale.isAtMostZero = false) :
    (∃ n, Quantity.roundedMultiple baseResolution (.real scale) = .ok n) ↔ Usable scale := by
  cases scale with
  | finite negative mantissa exponent =>
      obtain ⟨rfl, hMantissa⟩ : negative = false ∧ mantissa ≠ 0 := by
        simpa [Binary64.isAtMostZero] using h
      have hValue : (Binary64.finite false mantissa exponent).value?
          = some (mantissa * 2 ^ exponent : ℚ) := by simp [Binary64.value?]
      have hPositive : (0 : ℚ) < mantissa * 2 ^ exponent := by positivity
      have hMultiple := Quantity.roundedMultiple_finite baseResolution false mantissa exponent
      have hBase : ((baseResolution : Nat) : ℚ) = 96 := rfl
      rw [hBase] at hMultiple
      rcases hMultiple with ⟨hLarge, hError⟩ | ⟨hSmall, hOk⟩
      · refine iff_of_false (by simp [hError]) ?_
        rintro ⟨value, hSame, -, hSmall⟩
        obtain rfl := Option.some.inj (hValue.symm.trans hSame)
        exact absurd hSmall (not_lt.mpr hLarge)
      · exact iff_of_true hOk ⟨_, hValue, hPositive, hSmall⟩
  | infinite negative =>
      exact iff_of_false (by simp [Quantity.roundedMultiple, Binary64.scale])
        (by simp [Usable, Binary64.value?])
  | notANumber negative =>
      exact iff_of_false (by simp [Quantity.roundedMultiple, Binary64.scale])
        (by simp [Usable, Binary64.value?])

/-- Trees can be drawn to a scale that does not compare as zero or below exactly if it is usable. -/
theorem exists_ofTree_iff (h : scale.isAtMostZero = false) (tree : Tree) :
    (∃ graph, ofTree tree (.real scale) = .ok graph) ↔ Usable scale := by
  rw [← exists_roundedMultiple_iff h, ofTree]
  cases Quantity.roundedMultiple baseResolution (.real scale) <;> simp [Except.map]

theorem usable_defaultScale : Usable Image.defaultScale := by
  have hScale : Image.defaultScale = .finite false 5404319552844595 (-52) := by decide +kernel
  have hValue : Image.defaultScale.value? = some (5404319552844595 * 2 ^ (-52 : ℤ) : ℚ) := by
    rw [hScale]
    simp [Binary64.value?]
  refine ⟨_, hValue, by positivity, ?_⟩
  calc (96 * (5404319552844595 * 2 ^ (-52 : ℤ)) : ℚ)
      < 2 ^ (7 : ℤ) := by norm_num
    _ ≤ 2 ^ (1023 : ℤ) := zpow_le_zpow_right₀ one_le_two (by decide)
    _ ≤ limit := Binary64.zpow_le_limit

end Graph

/-- Saving an image at a scale without a resolution stops the source, if it has a tree at all. -/
theorem Image.save_of_undrawable {scale : Quantity}
    (hScale : ∀ tree graph, Graph.ofTree tree scale ≠ .ok graph) (renderer : Renderer)
    (files : FileSystem) (record : Record) (tree : Option Tree) (directory : Path) (suffix : String)
    (took : Duration) :
    let saved := (save renderer files record tree directory suffix scale took).record
    (tree = none ∧ saved = record) ∨ ∃ reason, saved = record.stoppedBy (.unbounded reason) := by
  cases tree with
  | none => exact Or.inl ⟨rfl, rfl⟩
  | some tree =>
      cases hGraph : Graph.ofTree tree scale with
      | ok graph => exact absurd hGraph (hScale tree graph)
      | error reason =>
          refine Or.inr ⟨reason, ?_⟩
          simp only [save, render, hGraph]

namespace Survey

variable {setting : Setting} {plan : Plan} {files : FileSystem} {summary : Summary}

/-- A source whose tree cannot be drawn fails, and so does a source without a tree. -/
theorem added_of_undrawable (hMode : plan.mode = .images)
    (hScale : ∀ tree graph, Graph.ofTree tree plan.scale ≠ .ok graph) (s : Survey) (path : Path) :
    (added setting plan s path).succeeded = false
      ∧ (added setting plan s path).imagePath = none := by
  have hReading := coherent_reading setting s.files path
  have hImage := (about_reading setting s.files path).imagePath
  obtain ⟨directory, hPlan⟩ : ∃ directory, plan.imageDirectory? = some directory := by
    rw [Plan.imageDirectory?, hMode]
    exact ⟨_, rfl⟩
  have hAdded : added setting plan s path = (Image.save setting.renderer s.files
      (reading setting s.files path).record (reading setting s.files path).tree directory
      plan.suffix plan.scale (setting.drawing path)).record := by
    rw [added, hPlan]
    rfl
  rw [hAdded]
  rcases Image.save_of_undrawable hScale setting.renderer s.files
      (reading setting s.files path).record (reading setting s.files path).tree directory
      plan.suffix (setting.drawing path) with ⟨hTree, hKept⟩ | ⟨reason, hStopped⟩
  · rw [hKept]
    refine ⟨beq_eq_false_iff_ne.mpr fun hSuccess => ?_, hImage⟩
    have hSome := hReading.tree_of_success hSuccess
    simp [hTree] at hSome
  · have hFailed : (Record.failure == Record.success) = false := by decide
    rw [hStopped]
    exact ⟨hFailed, hImage⟩

/-- Every source of such a survey fails, and none has an image. -/
theorem failed_of_undrawable (hMode : plan.mode = .images)
    (hScale : ∀ tree graph, Graph.ofTree tree plan.scale ≠ .ok graph)
    (hRun : (run setting plan files).result = .ok summary) :
    summary.failed = summary.total
      ∧ ∀ record ∈ summary.records, record.succeeded = false ∧ record.imagePath = none := by
  obtain ⟨paths, -, rfl, -, -⟩ := run_stage hRun
  have hRecords : ∀ record ∈ (stage setting plan files paths paths.length).summary.records,
      record.succeeded = false ∧ record.imagePath = none := by
    intro record hMem
    obtain ⟨index, hIndex⟩ := List.mem_iff_getElem?.mp hMem
    obtain ⟨path, image, -, rfl, hImage⟩ := record_of_stage hIndex
    obtain ⟨hFailed, hNone⟩ := added_of_undrawable hMode hScale
      (stage setting plan files paths index) path
    refine ⟨hFailed, ?_⟩
    rcases hImage with rfl | rfl
    · rfl
    · exact hNone
  refine ⟨?_, hRecords⟩
  have hMirrors : (stage setting plan files paths paths.length).summary.Mirrors := mirrors_stage _
  rw [hMirrors.failed, hMirrors.total, Summary.failures, List.filter_eq_self.mpr]
  intro record hMem
  rw [(hRecords record hMem).1, Bool.not_false]

end Survey

end SyntaxSurvey
