import SyntaxSurvey.Proofs.Graph.Text
import SyntaxSurvey.Log

/-! Wordings of events. Which event an exact wording belongs to is told by how it starts. -/

namespace SyntaxSurvey.Log.Event

theorem text_failedByFaults (count : Nat) :
    (failedByFaults count).text = "  FAILED (" ++ toString count ++ " syntax errors)" :=
  rfl

/-- The number of faults can be told from the line of a failure. -/
theorem text_failedByFaults_injective {count other : Nat}
    (h : (failedByFaults count).text = (failedByFaults other).text) : count = other := by
  have hDigits := congrArg String.toList h
  simp only [text_failedByFaults, String.toList_append, List.append_cancel_left_eq,
    List.append_cancel_right_eq, String.toList_inj] at hDigits
  have hName : Graph.nodeName count = Graph.nodeName other := congrArg ("node" ++ ·) hDigits
  exact Graph.nodeName_injective hName

/-- Only a failure by no faults is worded like one. Every other wording differs from this one within
its first characters. -/
theorem eq_failedByFaults_zero_of_text {event : Event}
    (h : event.text = "  FAILED (0 syntax errors)") : event = failedByFaults 0 := by
  rcases Classical.em (∃ count, event = failedByFaults count) with ⟨count, rfl⟩ | hOther
  · have hSame : (failedByFaults count).text = (failedByFaults 0).text := h
    rw [text_failedByFaults_injective hSame]
  · exfalso
    delta Log.Event.text at h
    delta Log.Event.textWith at h
    cases event
    case failedByFaults count => exact hOther ⟨count, rfl⟩
    all_goals
      clear hOther
      dsimp only at h
      have hStart := congrArg String.toList h
      simp [Graph.toString_self] at hStart

end SyntaxSurvey.Log.Event
