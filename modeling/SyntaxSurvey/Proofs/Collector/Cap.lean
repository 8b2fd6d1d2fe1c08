import SyntaxSurvey.Collector
import SyntaxSurvey.Grammar.Python

/-! What the cap of a collector does. A collector records a first stretch of the faults that it
would record without a cap, and it ends as it would without one unless the cap cut that short. -/

open SyntaxSurvey.Parser (Attempt)

namespace SyntaxSurvey

namespace Parser.Attempt

/-- The faults that are recorded when nothing but the end of the text stops an attempt. One that
is no fault of the text is not recorded. -/
def faults : Attempt → List Fault
  | .parsed _ => []
  | .broken fault => if fault.isSyntactic then [fault] else []
  | .paused fault resume => if fault.isAtEnd then [fault] else fault :: faults (resume ())

def outcome : Attempt → Collector.Outcome
  | .parsed tree => .tree tree
  | .broken fault => if fault.isSyntactic then .noTree else .escaped fault
  | .paused fault resume => if fault.isAtEnd then .noTree else outcome (resume ())

end Parser.Attempt

namespace Collector

/-- The number of faults that a collector still takes. The first one is always taken. -/
def room (c : Collector) : Nat :=
  (max 1 (c.cap - c.diagnostics.length)).toNat

theorem room_eq_succ (c : Collector) : ∃ n, c.room = n + 1 :=
  ⟨c.room - 1, by unfold room; omega⟩

/-- A collector that goes on has room for one fault less. -/
theorem room_record {c : Collector} (fault : Fault)
    (h : (c.diagnostics.length : Int) + 1 < c.cap) : (c.record fault).room + 1 = c.room := by
  unfold room record
  simp only [List.length_append, List.length_singleton]
  omega

/-- After a fault that was recorded the parser goes on if the fault is not that of the end and there
is room for one more. -/
theorem goesOnAfter_record (c : Collector) (fault : Fault) :
    (c.record fault).goesOnAfter fault = true ↔
      fault.isAtEnd = false ∧ (c.diagnostics.length : Int) + 1 < c.cap := by
  simp [goesOnAfter, record]

/-- Driving an attempt adds the first faults of that attempt, as many as there is room for, and
keeps all that was recorded before. -/
theorem drive_diagnostics (c : Collector) (a : Attempt) :
    (c.drive a).2.diagnostics =
      c.diagnostics ++ (a.faults.take c.room).map Diagnostic.ofFault := by
  obtain ⟨n, hRoom⟩ := c.room_eq_succ
  induction a generalizing c n with
  | parsed tree => simp [drive, Attempt.faults]
  | broken fault =>
      rw [drive, Attempt.faults, hRoom]
      split
      · simp [record]
      · simp
  | paused fault resume ih =>
      rw [drive, Attempt.faults]
      by_cases hOn : (c.record fault).goesOnAfter fault = true
      · obtain ⟨hEnd, hCap⟩ := (c.goesOnAfter_record fault).mp hOn
        obtain ⟨m, hRest⟩ := (c.record fault).room_eq_succ
        have hLess := room_record fault hCap
        rw [if_pos hOn, ih () (c.record fault) m hRest, if_neg (by simp [hEnd]), ← hLess,
          List.take_succ_cons]
        simp [record]
      · rw [if_neg hOn, hRoom]
        cases hEnd : fault.isAtEnd with
        | true => simp [record]
        | false =>
            have hCap : ¬(c.diagnostics.length : Int) + 1 < c.cap := fun h =>
              hOn ((c.goesOnAfter_record fault).mpr ⟨hEnd, h⟩)
            have hNone : n = 0 := by
              unfold room at hRoom
              omega
            simp [record, hNone]

/-- A collector whose cap is beyond all faults of an attempt ends as one without a cap. -/
theorem drive_outcome (c : Collector) (a : Attempt)
    (h : (c.diagnostics.length : Int) + a.faults.length < c.cap) :
    (c.drive a).1 = a.outcome := by
  induction a generalizing c with
  | parsed tree => rfl
  | broken fault =>
      rw [drive, Attempt.outcome]
      split <;> rfl
  | paused fault resume ih =>
      rw [drive, Attempt.outcome]
      cases hEnd : fault.isAtEnd with
      | true =>
          have hOff : ¬(c.record fault).goesOnAfter fault = true := by
            rw [goesOnAfter_record, hEnd]
            simp
          rw [if_neg hOff, if_pos rfl]
      | false =>
          simp only [Attempt.faults, hEnd, Bool.false_eq_true, ↓reduceIte,
            List.length_cons] at h
          have hOn := (c.goesOnAfter_record fault).mpr ⟨hEnd, by omega⟩
          rw [if_pos hOn, if_neg (by simp)]
          apply ih
          simp only [record, List.length_append, List.length_singleton]
          omega

/-- A fault leaves a driven attempt if it leaves the attempt without a cap, and if the cap lets
the attempt come that far. -/
theorem drive_eq_escaped_iff (c : Collector) (a : Attempt) (fault : Fault) :
    (c.drive a).1 = .escaped fault ↔ a.outcome = .escaped fault ∧
      (a.faults = [] ∨ (c.diagnostics.length : Int) + a.faults.length < c.cap) := by
  induction a generalizing c with
  | parsed tree => simp [drive, Attempt.outcome]
  | broken fault =>
      rw [drive, Attempt.outcome, Attempt.faults]
      split <;> simp
  | paused fault' resume ih =>
      rw [drive, Attempt.outcome, Attempt.faults]
      by_cases hOn : (c.record fault').goesOnAfter fault' = true
      · obtain ⟨hEnd, hCap⟩ := (c.goesOnAfter_record fault').mp hOn
        rw [if_pos hOn, ih () (c.record fault')]
        simp only [hEnd, Bool.false_eq_true, ↓reduceIte, record, List.length_append,
          List.length_cons, List.length_nil, List.cons_ne_nil, false_or]
        constructor
        · rintro ⟨hEscaped, hNone | hFits⟩
          · exact ⟨hEscaped, by simp only [hNone, List.length_nil]; omega⟩
          · exact ⟨hEscaped, by omega⟩
        · rintro ⟨hEscaped, hFits⟩
          exact ⟨hEscaped, Or.inr (by omega)⟩
      · rw [if_neg hOn]
        cases hEnd : fault'.isAtEnd with
        | true => simp
        | false =>
            have hCap : ¬(c.diagnostics.length : Int) + 1 < c.cap := fun h =>
              hOn ((c.goesOnAfter_record fault').mpr ⟨hEnd, h⟩)
            simp only [Bool.false_eq_true, ↓reduceIte, List.length_cons, List.cons_ne_nil,
              false_or, reduceCtorEq, false_iff, not_and]
            intro _
            omega

/-- A collector records a first stretch of what is recorded without a cap: what its cap leaves
room for, and at least one fault. When the cap is not reached, the ending is the same as well.
Faults and ending without a cap are those under every cap that is large enough, so a larger cap
only ever adds diagnostics. -/
theorem parse_cap (start : Grammar.Python.Start) (text : String) (c : Collector) :
    let t := Grammar.Python.table start
    let unlimited := ((Parser.attempt t text).faults.map Diagnostic.ofFault)
    let ending := (Parser.attempt t text).outcome
    (∀ source, ∀ cap : Int, unlimited.length < cap →
      ((fresh source cap).parse t text).1 = ending ∧
        ((fresh source cap).parse t text).2.diagnostics = unlimited) ∧
    (c.parse t text).2.diagnostics = c.diagnostics ++
      unlimited.take (max 1 (c.cap - c.diagnostics.length)).toNat ∧
    ((unlimited.length : Int) < c.cap - c.diagnostics.length →
      (c.parse t text).1 = ending) ∧
    (∀ source, ∀ cap cap' : Int, cap ≤ cap' →
      ((fresh source cap).parse t text).2.diagnostics <+:
        ((fresh source cap').parse t text).2.diagnostics) ∧
    (∀ source, ∀ cap : Int,
      (((fresh source cap).parse t text).2.diagnostics.length : Int) ≤ max 1 cap) := by
  intro t unlimited ending
  have hTaken (c : Collector) : (c.parse t text).2.diagnostics =
      c.diagnostics ++ unlimited.take c.room := by
    rw [parse, drive_diagnostics, List.map_take]
  have hLength : unlimited.length = (Parser.attempt t text).faults.length := List.length_map ..
  refine ⟨?_, hTaken c, ?_, ?_, ?_⟩
  · intro source cap hCap
    have hRoom : unlimited.length ≤ (fresh source cap).room := by
      simp only [room, fresh, List.length_nil]
      omega
    refine ⟨drive_outcome _ _ ?_, ?_⟩
    · simp only [fresh, List.length_nil]
      omega
    · rw [hTaken, List.take_of_length_le hRoom]
      rfl
  · intro hCap
    exact drive_outcome _ _ (by omega)
  · intro source cap cap' hCap
    have hRoom : (fresh source cap).room ≤ (fresh source cap').room := by
      simp only [room, fresh, List.length_nil]
      omega
    rw [hTaken, hTaken]
    exact List.take_prefix_take_left hRoom
  · intro source cap
    rw [hTaken]
    have hTake := List.length_take_le (fresh source cap).room unlimited
    simp only [room, fresh, List.length_nil, List.nil_append] at hTake ⊢
    omega

end Collector

end SyntaxSurvey
