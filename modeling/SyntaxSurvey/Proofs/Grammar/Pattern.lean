import SyntaxSurvey.Grammar.Python.Terminals

/-! Matching patterns. Whatever a pattern matches, it moves a place forward in the text. From this
and from greed it follows that a line end without a line feed is a remark up to the end of the
text. -/

namespace SyntaxSurvey.Grammar.Pattern

/-- The characters from one place to a later one. -/
def Place.Leads (place : Place) (chars : List Char) (other : Place) : Prop :=
  place.ahead = chars ++ other.ahead ∧ other.taken = place.taken + chars.length

theorem Place.Leads.refl (place : Place) : place.Leads [] place :=
  ⟨rfl, rfl⟩

/-- Places lead on over one text after another. -/
theorem Place.Leads.trans {place middle other : Place} {cs ds : List Char}
    (left : place.Leads cs middle) (right : middle.Leads ds other) :
    place.Leads (cs ++ ds) other := by
  obtain ⟨hAhead, hTaken⟩ := left
  obtain ⟨hAhead', hTaken'⟩ := right
  refine ⟨by rw [hAhead, hAhead', List.append_assoc], ?_⟩
  rw [hTaken', hTaken, List.length_append, Nat.add_assoc]

section Equations

variable (next : Continuation) (place : Place) (first second body : Pattern) (accepts : Char → Bool)

theorem run_empty : empty.run place next = next place :=
  rfl

theorem run_one :
    (one accepts).run place next = match place.ahead with
      | c :: rest =>
        if accepts c then next ⟨some c, rest, place.taken + 1⟩ else none
      | [] => none :=
  rfl

theorem run_seq :
    (seq first second).run place next = first.run place fun place => second.run place next :=
  rfl

theorem run_alt :
    (alt first second).run place next = match first.run place next with
      | some taken => some taken
      | none => second.run place next :=
  rfl

theorem run_many :
    (many body).run place next
      = iterate true (fun place next => body.run place next) place.ahead place next :=
  rfl

theorem run_few :
    (few body).run place next
      = iterate false (fun place next => body.run place next) place.ahead place next :=
  rfl

theorem run_notAhead :
    (notAhead body).run place next = match body.run place fun place => some place.taken with
      | some _ => none
      | none => next place :=
  rfl

theorem run_notBehind :
    (notBehind accepts).run place next
      = if place.before.any accepts then none else next place :=
  rfl

theorem iterate_cons (greedy : Bool) (step : Place → Continuation → Option Nat) (c : Char)
    (budget : List Char) :
    iterate greedy step (c :: budget) place next
      = if greedy then
          match step place fun place => iterate greedy step budget place next with
          | some taken => some taken
          | none => next place
        else
          match next place with
          | some taken => some taken
          | none => step place fun place => iterate greedy step budget place next :=
  rfl

end Equations

variable {next : Continuation} {place : Place} {n : Nat}

/-- A repetition leads on if each of its steps does. -/
theorem iterate_leads {greedy : Bool} {step : Place → Continuation → Option Nat}
    (hStep : ∀ next place n, step place next = some n →
      ∃ chars other, place.Leads chars other ∧ next other = some n)
    (budget : List Char) (h : iterate greedy step budget place next = some n) :
    ∃ chars other, place.Leads chars other ∧ next other = some n := by
  induction budget generalizing place with
  | nil => exact ⟨[], place, .refl place, h⟩
  | cons c budget ih =>
      have hOnce (hTaken : (step place fun place => iterate greedy step budget place next) =
          some n) : ∃ chars other, place.Leads chars other ∧ next other = some n := by
        obtain ⟨cs, middle, hFirst, hRest⟩ := hStep _ _ _ hTaken
        obtain ⟨ds, other, hLast, hNext⟩ := ih hRest
        exact ⟨_, other, hFirst.trans hLast, hNext⟩
      rw [iterate_cons] at h
      cases greedy with
      | true =>
          rw [if_pos rfl] at h
          split at h
          · rename_i taken hTaken
            exact hOnce (hTaken.trans h)
          · exact ⟨[], place, .refl place, h⟩
      | false =>
          rw [if_neg (by simp)] at h
          split at h
          · rename_i taken hTaken
            exact ⟨[], place, .refl place, hTaken.trans h⟩
          · exact hOnce h

/-- What follows a pattern is matched at a later place, or at the same one. -/
theorem run_leads (p : Pattern) (h : p.run place next = some n) :
    ∃ chars other, place.Leads chars other ∧ next other = some n := by
  induction p generalizing place next n with
  | empty => exact ⟨[], place, .refl place, h⟩
  | one accepts =>
      rw [run_one] at h
      split at h
      · rename_i c rest hAhead
        split at h
        · exact ⟨[c], ⟨some c, rest, place.taken + 1⟩, ⟨hAhead, rfl⟩, h⟩
        · simp at h
      · simp at h
  | seq first second ihFirst ihSecond =>
      rw [run_seq] at h
      obtain ⟨cs, middle, hFirst, hRest⟩ := ihFirst h
      obtain ⟨ds, other, hSecond, hNext⟩ := ihSecond hRest
      exact ⟨_, other, hFirst.trans hSecond, hNext⟩
  | alt first second ihFirst ihSecond =>
      rw [run_alt] at h
      split at h
      · rename_i taken hTaken
        exact ihFirst (hTaken.trans h)
      · exact ihSecond h
  | many body ih =>
      rw [run_many] at h
      exact iterate_leads (fun _ _ _ => ih) _ h
  | few body ih =>
      rw [run_few] at h
      exact iterate_leads (fun _ _ _ => ih) _ h
  | notAhead body ih =>
      rw [run_notAhead] at h
      split at h
      · simp at h
      · exact ⟨[], place, .refl place, h⟩
  | notBehind accepts =>
      rw [run_notBehind] at h
      split at h
      · simp at h
      · exact ⟨[], place, .refl place, h⟩

/-- A repetition as often as possible goes well if what comes after it always does. -/
theorem iterate_greedy_isSome (step : Place → Continuation → Option Nat)
    (hNext : ∀ place, (next place).isSome) (budget : List Char) (place : Place) :
    (iterate true step budget place next).isSome := by
  cases budget with
  | nil => exact hNext place
  | cons c budget =>
      rw [iterate_cons, if_pos rfl]
      split
      · rfl
      · exact hNext place

/-- Repetition never fails, if what comes after it does not. -/
theorem many_isSome (body : Pattern) (hNext : ∀ place, (next place).isSome) (place : Place) :
    ((many body).run place next).isSome := by
  rw [run_many]
  exact iterate_greedy_isSome _ hNext _ _

/-- A greedy repetition of one set of characters goes on up to the first character outside. -/
theorem many_one_eq (accepts : Char → Bool) (hNext : ∀ place, (next place).isSome)
    (place : Place) :
    ∃ other, place.Leads (place.ahead.takeWhile accepts) other ∧
      other.ahead = place.ahead.dropWhile accepts ∧
      (many (one accepts)).run place next = next other := by
  rw [run_many]
  suffices hBudget : ∀ budget : List Char, place.ahead.length ≤ budget.length →
      ∃ other, place.Leads (place.ahead.takeWhile accepts) other ∧
        other.ahead = place.ahead.dropWhile accepts ∧
        iterate true (fun place next => (one accepts).run place next) budget place next =
          next other from hBudget _ (Nat.le_refl _)
  intro budget hLength
  induction budget generalizing place with
  | nil =>
      have hAhead : place.ahead = [] := List.length_eq_zero_iff.mp (Nat.le_zero.mp hLength)
      exact ⟨place, by simpa [hAhead] using Place.Leads.refl place, by simp [hAhead], rfl⟩
  | cons c budget ih =>
      rw [iterate_cons, if_pos rfl, run_one]
      cases hAhead : place.ahead with
      | nil => exact ⟨place, by simpa [hAhead] using Place.Leads.refl place, by simp [hAhead], rfl⟩
      | cons d rest =>
          dsimp only
          by_cases hAccepts : accepts d = true
          · obtain ⟨other, hLeads, hRest, hRun⟩ :=
              ih ⟨some d, rest, place.taken + 1⟩ (by simpa [hAhead] using hLength)
            have hSome := iterate_greedy_isSome
              (fun place next => (one accepts).run place next) hNext budget
              ⟨some d, rest, place.taken + 1⟩
            obtain ⟨taken, hTaken⟩ := Option.isSome_iff_exists.mp hSome
            refine ⟨other, ?_, by simpa [hAccepts] using hRest, ?_⟩
            · have hFirst : place.Leads [d] ⟨some d, rest, place.taken + 1⟩ := ⟨hAhead, rfl⟩
              simpa [hAccepts] using hFirst.trans hLeads
            · rw [if_pos hAccepts, hTaken]
              exact hTaken.symm.trans hRun
          · rw [if_neg hAccepts]
            exact ⟨place, by simpa [hAccepts] using Place.Leads.refl place,
              by simp [hAhead, hAccepts], rfl⟩

end SyntaxSurvey.Grammar.Pattern
