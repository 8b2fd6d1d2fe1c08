import SyntaxSurvey.Parser.Layout

/-! What the layout rules say after a token, once for each way in which they can answer. Only
brackets change the depth, and only a bracket that nothing opened or a remark without a line end
makes the rules fail. -/

namespace SyntaxSurvey.Parser

def opensBracket (token : Token) : Bool :=
  decide (token.kind ∈ ["LPAR", "LSQB", "LBRACE"])

def closesBracket (token : Token) : Bool :=
  decide (token.kind ∈ ["RPAR", "RSQB", "RBRACE"])

namespace Layout

variable {l : Layout} {token : Token} {step : Step} {fault : Fault}

/-- There is no last line exactly if there is no line feed. -/
theorem afterLastLine?_eq_none_iff (cs : List Char) : afterLastLine? cs = none ↔ '\n' ∉ cs := by
  simp [afterLastLine?]

theorem newline_not_bracket (h : token.kind = newlineKind) :
    opensBracket token = false ∧ closesBracket token = false := by
  simp only [opensBracket, closesBracket, h]
  decide

theorem not_opens_of_closes (h : closesBracket token = true) : opensBracket token = false := by
  simp only [closesBracket, decide_eq_true_eq, List.mem_cons, List.not_mem_nil, or_false] at h
  rcases h with h | h | h <;> simp [opensBracket, h]

/-- After the end of a line the indentation of the next one is looked at. -/
theorem after_newline (h : token.kind = newlineKind) :
    l.after token =
      afterNewline { l with read := some token, passed := some token } token := by
  rw [after, if_pos h]

theorem after_opening (h : opensBracket token = true) :
    l.after token = .ok ⟨[], ⟨l.depth + 1, l.indents, some token, some token⟩, none⟩ := by
  have hKind : token.kind ≠ newlineKind := fun hKind => by
    simp [(newline_not_bracket hKind).1] at h
  rw [after, if_neg hKind, if_pos (by simpa [opensBracket] using h)]

/-- A closing bracket takes one from the depth, and without one to take it is a defect. -/
theorem after_closing (h : closesBracket token = true) :
    l.after token = if l.depth = 0 then .error .unbalancedBracket
      else .ok ⟨[], ⟨l.depth - 1, l.indents, some token, some token⟩, none⟩ := by
  have hKind : token.kind ≠ newlineKind := fun hKind => by
    simp [(newline_not_bracket hKind).2] at h
  have hOpens := not_opens_of_closes h
  rw [after, if_neg hKind, if_neg (by simpa [opensBracket] using hOpens),
    if_pos (by simpa [closesBracket] using h)]

theorem after_other (hKind : token.kind ≠ newlineKind) (hOpens : opensBracket token = false)
    (hCloses : closesBracket token = false) :
    l.after token = .ok ⟨[], { l with read := some token, passed := some token }, none⟩ := by
  rw [after, if_neg hKind, if_neg (by simpa [opensBracket] using hOpens),
    if_neg (by simpa [closesBracket] using hCloses)]

/-- A line end leaves the depth as it is. If the next line is astray the fault says so, and
without a line feed there is no next line. -/
theorem afterNewline_cases (l : Layout) (token : Token) :
    ('\n' ∉ token.text.toList ∧ l.afterNewline token = .error .remarkAtEnd) ∨
    '\n' ∈ token.text.toList ∧ ∃ step, l.afterNewline token = .ok step ∧
      step.layout.depth = l.depth ∧
      ∀ fault, step.fault = some fault → ∃ message, fault = .misalignedLine message := by
  unfold afterNewline
  cases hLine : afterLastLine? token.text.toList with
  | none => exact .inl ⟨(afterLastLine?_eq_none_iff _).mp hLine, rfl⟩
  | some indentation =>
      have hMem : '\n' ∈ token.text.toList := Decidable.byContradiction fun hNone => by
        simp [(afterLastLine?_eq_none_iff _).mpr hNone] at hLine
      refine .inr ⟨hMem, ?_⟩
      dsimp only
      split
      · exact ⟨_, rfl, rfl, by simp⟩
      · refine ⟨_, rfl, rfl, ?_⟩
        intro fault hFault
        dsimp only at hFault
        split at hFault
        · simp at hFault
        · obtain rfl := Option.some.inj hFault
          exact ⟨_, rfl⟩

/-- The layout rules fail at a closing bracket when none is open, and at a line end without a line
feed, and nowhere else. -/
theorem after_eq_error_iff :
    l.after token = .error fault ↔
      closesBracket token = true ∧ l.depth = 0 ∧ fault = .unbalancedBracket ∨
      token.kind = newlineKind ∧ '\n' ∉ token.text.toList ∧ fault = .remarkAtEnd := by
  by_cases hKind : token.kind = newlineKind
  · rw [after_newline hKind]
    rcases afterNewline_cases { l with read := some token, passed := some token } token with
      ⟨hNone, hError⟩ | ⟨hSome, step, hOk, _⟩
    · simp [hError, (newline_not_bracket hKind).2, hKind, hNone, eq_comm]
    · simp [hOk, (newline_not_bracket hKind).2, hSome]
  · cases hCloses : closesBracket token with
    | true =>
        rw [after_closing hCloses]
        split
        · rename_i hDepth
          simp [hDepth, hKind, eq_comm]
        · rename_i hDepth
          simp [hDepth, hKind]
    | false =>
        cases hOpens : opensBracket token with
        | true => simp [after_opening hOpens, hKind]
        | false => simp [after_other hKind hOpens hCloses, hKind]

/-- The depth counts the brackets that are open. -/
theorem after_depth (h : l.after token = .ok step) :
    step.layout.depth + (closesBracket token).toNat = l.depth + (opensBracket token).toNat := by
  by_cases hKind : token.kind = newlineKind
  · rw [after_newline hKind] at h
    obtain ⟨hOpens, hCloses⟩ := newline_not_bracket hKind
    rcases afterNewline_cases { l with read := some token, passed := some token } token with
      ⟨_, hError⟩ | ⟨_, other, hOk, hDepth, _⟩
    · simp [hError] at h
    · obtain rfl := Except.ok.inj (hOk.symm.trans h)
      simp [hDepth, hOpens, hCloses]
  · cases hCloses : closesBracket token with
    | true =>
        rw [after_closing hCloses] at h
        split at h
        · simp at h
        · obtain rfl := Except.ok.inj h
          simp only [not_opens_of_closes hCloses, Bool.toNat_true, Bool.toNat_false]
          omega
    | false =>
        cases hOpens : opensBracket token with
        | true =>
            obtain rfl := Except.ok.inj ((after_opening hOpens).symm.trans h)
            simp
        | false =>
            obtain rfl := Except.ok.inj ((after_other hKind hOpens hCloses).symm.trans h)
            simp

/-- What the layout puts in after a token has the place of that token. -/
theorem after_tokens (h : l.after token = .ok step) :
    step.layout.read = some token ∧ step.layout.passed = some token ∧
      ∀ other ∈ step.tokens, ∃ kind text, (kind = indentKind ∨ kind = dedentKind) ∧
        other = token.inPlace kind text := by
  by_cases hKind : token.kind = newlineKind
  · rw [after_newline hKind, afterNewline] at h
    cases hLine : afterLastLine? token.text.toList with
    | none => simp [hLine] at h
    | some indentation =>
        simp only [hLine] at h
        split at h
        · obtain rfl := Except.ok.inj h
          refine ⟨rfl, rfl, fun other hOther => ?_⟩
          exact ⟨indentKind, _, .inl rfl, List.mem_singleton.mp hOther⟩
        · obtain rfl := Except.ok.inj h
          refine ⟨rfl, rfl, fun other hOther => ?_⟩
          exact ⟨dedentKind, _, .inr rfl, (List.mem_replicate.mp hOther).2⟩
  · cases hCloses : closesBracket token with
    | true =>
        rw [after_closing hCloses] at h
        split at h
        · simp at h
        · obtain rfl := Except.ok.inj h
          exact ⟨rfl, rfl, by simp⟩
    | false =>
        cases hOpens : opensBracket token with
        | true =>
            obtain rfl := Except.ok.inj ((after_opening hOpens).symm.trans h)
            exact ⟨rfl, rfl, by simp⟩
        | false =>
            obtain rfl := Except.ok.inj ((after_other hKind hOpens hCloses).symm.trans h)
            exact ⟨rfl, rfl, by simp⟩

/-- What the layout puts in at the end of the text has the place of the last token that was read. It
puts something in only if an indentation is open. -/
theorem mem_closing {other : Token} (h : other ∈ l.closing) :
    l.indents ≠ [] ∧ ∃ origin : Token, other = origin.inPlace dedentKind "" ∧
      ∀ token, l.read = some token → origin = token := by
  obtain ⟨hOpen, rfl⟩ := List.mem_replicate.mp h
  exact ⟨fun hNone => hOpen (by simp [hNone]), _, rfl, fun token hToken => by simp [hToken]⟩

/-- What is wrong with a line that can be read at all is how it is indented. -/
theorem after_fault (h : l.after token = .ok step) (hFault : step.fault = some fault) :
    ∃ message, fault = .misalignedLine message := by
  by_cases hKind : token.kind = newlineKind
  · rw [after_newline hKind] at h
    rcases afterNewline_cases { l with read := some token, passed := some token } token with
      ⟨_, hError⟩ | ⟨_, other, hOk, _, hAstray⟩
    · simp [hError] at h
    · obtain rfl := Except.ok.inj (hOk.symm.trans h)
      exact hAstray fault hFault
  · cases hCloses : closesBracket token with
    | true =>
        rw [after_closing hCloses] at h
        split at h
        · simp at h
        · obtain rfl := Except.ok.inj h
          simp at hFault
    | false =>
        cases hOpens : opensBracket token with
        | true =>
            obtain rfl := Except.ok.inj ((after_opening hOpens).symm.trans h)
            simp at hFault
        | false =>
            obtain rfl := Except.ok.inj ((after_other hKind hOpens hCloses).symm.trans h)
            simp at hFault

end Layout

end SyntaxSurvey.Parser
