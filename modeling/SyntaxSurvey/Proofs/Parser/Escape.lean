import SyntaxSurvey.Proofs.Parser.Recovery

/-! Faults that leave the parser. Layout forgets the open brackets whenever parsing goes on after a
fault, so a bracket from before the fault may be closed when layout knows of none. That, and a
remark that ends the text without a line feed, are the only ways in which a fault is not
recorded. -/

namespace SyntaxSurvey.Parser

open Grammar

namespace Standing

variable {t : Table} {s : Standing} {text : String} {count : Nat} {fault : Fault}

/-- Before any fault, the grammar takes a closing bracket after as many closing as opening ones.
Brackets from before the standing do not count. -/
def ClosesUnopened (t : Table) (s : Standing) : Prop :=
  ∃ tokens final lexeme top, Course t s tokens final ∧ final.Takes t lexeme top ∧
    closesBracket (final.token lexeme) = true ∧
    tokens.countP closesBracket = tokens.countP opensBracket

/-- Before any fault, the grammar takes a line end that has no line feed. -/
def EndsInRemark (t : Table) (s : Standing) : Prop :=
  ∃ tokens final lexeme top, Course t s tokens final ∧ final.Takes t lexeme top ∧
    lexeme.kind = newlineKind ∧ '\n' ∉ lexeme.chars

/-- A fault that is not recorded arises before any other one. -/
def Escapes (t : Table) (s : Standing) (fault : Fault) : Prop :=
  fault = .unbalancedBracket ∧ s.ClosesUnopened t ∨ fault = .remarkAtEnd ∧ s.EndsInRemark t

/-- A move raises the depth by the brackets that it opens and lowers it by those that it closes. -/
theorem Move.depth {tokens : List Token} {next : Standing} (move : Move t s tokens next) :
    next.layout.depth + tokens.countP closesBracket =
      s.layout.depth + tokens.countP opensBracket := by
  cases move with
  | ignored scanned idle => rfl
  | dropped scanned counts drops => rfl
  | taken takes laidOut given aligned =>
      have hDepth := Layout.after_depth laidOut
      simp only [past, List.countP_cons, List.countP_nil, Nat.zero_add]
      cases hCloses : closesBracket (s.token _) <;> cases hOpens : opensBracket (s.token _) <;>
        simpa [hCloses, hOpens] using hDepth

/-- Along a course the depth counts the brackets that the grammar has taken. -/
theorem Course.depth {tokens : List Token} {next : Standing} (course : Course t s tokens next) :
    next.layout.depth + tokens.countP closesBracket =
      s.layout.depth + tokens.countP opensBracket := by
  induction course with
  | refl => rfl
  | step prior last ih =>
      have hLast := last.depth
      rw [List.countP_append, List.countP_append]
      omega

/-- Where the layer for layout has a defect, the attempt breaks with it. -/
theorem attempt_of_unlaid {lexeme : Lexeme} {top : Stack} (takes : s.Takes t lexeme top)
    (noLayout : s.layout.after (s.token lexeme) = .error fault) :
    s.attempt t = .broken fault := by
  rw [attempt_of_counts takes.scanned takes.counts takes.kept, takes.shifted]
  dsimp only
  rw [noLayout]

/-- The two faults that are not recorded are what the attempt comes to. -/
theorem Escapes.attempt_eq (anew : s.layout = .fresh) (escapes : Escapes t s fault) :
    s.attempt t = .broken fault := by
  rcases escapes with ⟨rfl, tokens, final, lexeme, top, hCourse, hTakes, hCloses, hEven⟩ |
    ⟨rfl, tokens, final, lexeme, top, hCourse, hTakes, hKind, hRemark⟩
  · have hDepth := hCourse.depth
    rw [anew] at hDepth
    have hNone : final.layout.depth = 0 := by
      change _ = 0 + _ at hDepth
      omega
    rw [hCourse.attempt_eq]
    exact attempt_of_unlaid hTakes
      (Layout.after_eq_error_iff.mpr (.inl ⟨hCloses, hNone, rfl⟩))
  · rw [hCourse.attempt_eq]
    refine attempt_of_unlaid hTakes (Layout.after_eq_error_iff.mpr (.inr ⟨hKind, ?_, rfl⟩))
    simpa [token] using hRemark

/-- What escapes is no syntax error. -/
theorem Escapes.not_syntactic (escapes : Escapes t s fault) : fault.isSyntactic = false := by
  rcases escapes with ⟨rfl, _⟩ | ⟨rfl, _⟩ <;> rfl

/-- What the layout rules refuse after a course is one of the two faults. -/
theorem escapes_of_unlaid {tokens : List Token} {final : Standing} {lexeme : Lexeme} {top : Stack}
    (anew : s.layout = .fresh) (course : Course t s tokens final)
    (takes : final.Takes t lexeme top)
    (noLayout : final.layout.after (final.token lexeme) = .error fault) :
    Escapes t s fault := by
  rcases Layout.after_eq_error_iff.mp noLayout with
    ⟨hCloses, hDepth, rfl⟩ | ⟨hKind, hRemark, rfl⟩
  · have hCourse := course.depth
    rw [anew, hDepth] at hCourse
    change 0 + _ = 0 + _ at hCourse
    exact .inl ⟨rfl, tokens, final, lexeme, top, course, takes, hCloses, by omega⟩
  · refine .inr ⟨rfl, tokens, final, lexeme, top, course, takes, hKind, ?_⟩
    simpa [token] using hRemark

/-- What comes of a text is what comes of it where parsing goes on, with the faults before. -/
theorem ResumesAt.outcome_eq (resumes : ResumesAt t text count s) :
    (Parser.attempt t text).outcome = (s.attempt t).outcome ∧
      (Parser.attempt t text).faults.length = count + (s.attempt t).faults.length := by
  induction resumes with
  | opening => exact ⟨rfl, (Nat.zero_add _).symm⟩
  | @again count s final next tokens fault prior course pause inside ih =>
      have hAttempt : s.attempt t = .paused fault fun _ => next.attempt t :=
        course.attempt_eq.trans pause.attempt_eq
      rw [hAttempt, Attempt.outcome, Attempt.faults, inside] at ih
      simp only [Bool.false_eq_true, ↓reduceIte, List.length_cons] at ih
      exact ⟨ih.1, by omega⟩

/-- An attempt that ends in a fault that is not recorded comes to a standing from which that fault
is the first one. -/
theorem exists_escapes (resumes : ResumesAt t text count s)
    (escaped : (s.attempt t).outcome = .escaped fault) :
    ∃ start, ResumesAt t text (count + (s.attempt t).faults.length) start ∧
      Escapes t start fault := by
  induction count, s, resumes using ResumesAt.induction with
  | step count s resumes ih =>
      obtain ⟨tokens, final, hCourse, hStop⟩ := exists_course t s
      have hSame := hCourse.attempt_eq
      rw [hSame] at hStop
      generalize hAttempt : final.attempt t = a at hStop
      rw [hAttempt] at hSame
      rw [hSame] at escaped ⊢
      cases hStop with
      | accepted accepts => simp [Attempt.outcome] at escaped
      | @paused other next pause =>
          rw [Attempt.outcome] at escaped
          split at escaped
          · simp at escaped
          · rename_i hInside
            rw [Attempt.faults, if_neg hInside]
            obtain ⟨start, hStart, hEscapes⟩ :=
              ih tokens final other next hCourse pause (by simpa using hInside) escaped
            refine ⟨start, ?_, hEscapes⟩
            rw [List.length_cons, Nat.add_comm _ 1, ← Nat.add_assoc]
            exact hStart
      | unlaid takes noLayout =>
          rw [Attempt.outcome] at escaped
          have hEscapes := escapes_of_unlaid resumes.anew hCourse takes noLayout
          rw [if_neg (by simp [hEscapes.not_syntactic])] at escaped
          obtain rfl := Collector.Outcome.escaped.inj escaped
          rw [Attempt.faults, if_neg (by simp [hEscapes.not_syntactic])]
          exact ⟨s, resumes, hEscapes⟩
      | misaligned takes laidOut given astray =>
          obtain ⟨message, rfl⟩ := Layout.after_fault laidOut astray
          simp [Attempt.outcome, Fault.isSyntactic] at escaped
      | @ended top noText given =>
          rcases conclude_cases t (final.layout.closing.getLast?.or
            (final.layout.passed.or final.last)) top with ⟨tree, hTree⟩ | ⟨other, hEnd, hPaused⟩
          · simp [hTree, Attempt.outcome] at escaped
          · simp [hPaused, Attempt.outcome, hEnd] at escaped

/-- An attempt ends in a fault that is not recorded if and only if, after all faults that are
recorded, parsing goes on to that fault. -/
theorem outcome_eq_escaped_iff :
    (Parser.attempt t text).outcome = .escaped fault ↔
      ∃ s, ResumesAt t text (Parser.attempt t text).faults.length s ∧ Escapes t s fault := by
  constructor
  · intro escaped
    obtain ⟨start, hStart, hEscapes⟩ := exists_escapes (.opening : ResumesAt t text 0 _) escaped
    rw [Nat.zero_add] at hStart
    exact ⟨start, hStart, hEscapes⟩
  · rintro ⟨start, hStart, hEscapes⟩
    rw [hStart.outcome_eq.1, hEscapes.attempt_eq hStart.anew, Attempt.outcome,
      if_neg (by simp [hEscapes.not_syntactic])]

end Standing

end SyntaxSurvey.Parser
