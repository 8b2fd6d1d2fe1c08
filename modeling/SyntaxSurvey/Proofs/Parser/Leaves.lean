import SyntaxSurvey.Proofs.Parser.Place
import SyntaxSurvey.Proofs.Parser.Slices

/-! Leaves of parse trees. Along every run, faults and what follows them included, the stack bears pieces
of the text that is behind, in order. So a tree, however many faults were passed over before it, has
only pieces of the text as its leaves. -/

namespace SyntaxSurvey

namespace Parser

open Grammar

variable {t : Table} {cs : List Char} {tokens : List Token} {token : Token} {stack top : Stack}
  {high : Nat} {tree : Tree}

/-- A token of the layout holds nothing of the text. -/
theorem holds_layout (cs : List Char) (hKind : IsLayout token.kind) (offset : Nat) :
    Holds cs (.leaf token) (.terminal token.kind) offset offset :=
  .inl ⟨⟨token.kind, rfl, hKind⟩, Nat.le_refl _⟩

/-- The tokens that the layer adds are layout. -/
theorem isLayout_of_after {l : Layout} {step : Layout.Step} (h : l.after token = .ok step)
    {other : Token} (hMem : other ∈ step.tokens) : IsLayout other.kind := by
  obtain ⟨kind, text, hKind, rfl⟩ := (Layout.after_tokens h).2.2 other hMem
  exact hKind

theorem isLayout_of_closing {l : Layout} (hMem : token ∈ l.closing) : IsLayout token.kind := by
  obtain ⟨-, origin, rfl, -⟩ := Layout.mem_closing hMem
  exact .inr rfl

/-- A stack that was given layout still bears slices of the text. -/
theorem Given.bears (fits : Fits t) (given : Given t tokens stack top)
    (layout : ∀ token ∈ tokens, IsLayout token.kind) (bears : Bears t cs stack high) :
    Bears t cs top high := by
  induction given with
  | nil => exact bears
  | cons first rest ih =>
      obtain ⟨hFirst, hRest⟩ := List.forall_mem_cons.mp layout
      exact ih hRest (bears.shifted fits (holds_layout cs hFirst high) first)

theorem Stuck.bears (fits : Fits t) (stuck : Stuck t tokens stack token top)
    (layout : ∀ token ∈ tokens, IsLayout token.kind) (bears : Bears t cs stack high) :
    Bears t cs top high := by
  induction stuck with
  | here refused => exact bears.refused fits refused
  | later first rest ih =>
      obtain ⟨hFirst, hRest⟩ := List.forall_mem_cons.mp layout
      exact ih hRest (bears.shifted fits (holds_layout cs hFirst high) first)

/-- The leaves of a tree that is accepted after layout are slices of the text in order. -/
theorem Accepted.slices (fits : Fits t) (accepted : Accepted t tokens stack tree)
    (layout : ∀ token ∈ tokens, IsLayout token.kind) (bears : Bears t cs stack high) :
    ∃ low, Slices cs tree.leaves low high := by
  induction accepted with
  | here accepted => exact bears.accepted fits accepted
  | later first rest ih =>
      obtain ⟨hFirst, hRest⟩ := List.forall_mem_cons.mp layout
      exact ih hRest (bears.shifted fits (holds_layout cs hFirst high) first)

namespace Standing

variable {s next : Standing} {lexeme : Lexeme} {offset count : Nat} {text : String} {fault : Fault}

theorem length_token (s : Standing) (lexeme : Lexeme) :
    (s.token lexeme).text.length = lexeme.chars.length := by
  rw [token, ← String.length_toList, String.toList_ofList]

/-- A token that was scanned is the piece of the text at which parsing stands. -/
theorem StandsAt.slice (stands : s.StandsAt cs offset) (scanned : s.scan t = some lexeme) :
    Slice cs (s.token lexeme) offset where
  text := by
    rw [length_token, ← stands.ahead, ← Scanner.chars_append_rest scanned, List.take_left, token,
      String.toList_ofList]
  nonempty := by
    intro hEmpty
    have hLength := length_token s lexeme
    rw [hEmpty] at hLength
    exact Scanner.chars_ne_nil scanned (List.length_eq_zero_iff.mp hLength.symm)
  start := stands.position
  stop := by
    have hPast := stands.past (Scanner.chars_append_rest scanned) s.stack s.last s.layout
    rw [length_token, ← hPast.position]
    rfl

/-- Parsing stands at an offset of a text, and the stack bears pieces of the text before it. -/
def Built (t : Table) (cs : List Char) (s : Standing) : Prop :=
  ∃ offset, s.StandsAt cs offset ∧ Bears t cs s.stack offset

theorem built_opening (t : Table) (text : String) : (opening text).Built t text.toList :=
  ⟨0, standsAt_opening text, bears_nil t text.toList⟩

/-- A token of the text that the grammar takes is a piece on the stack. -/
theorem Takes.bears (fits : Fits t) (takes : s.Takes t lexeme top) (stands : s.StandsAt cs offset)
    (bears : Bears t cs s.stack offset) : Bears t cs top (offset + lexeme.chars.length) := by
  have hSlice := Slices.single (stands.slice takes.scanned)
  rw [length_token] at hSlice
  exact bears.shifted fits (.inr hSlice) takes.shifted

/-- The parser stays built from slices of the text with every move. -/
theorem Move.built (fits : Fits t) (move : Move t s tokens next) (built : s.Built t cs) :
    next.Built t cs := by
  obtain ⟨offset, hStands, hBears⟩ := built
  cases move with
  | ignored scanned idle =>
      exact ⟨_, hStands.past (Scanner.chars_append_rest scanned) _ _ _,
        hBears.widen (Nat.le_add_right _ _)⟩
  | dropped scanned counts drops =>
      exact ⟨_, hStands.past (Scanner.chars_append_rest scanned) _ _ _,
        hBears.widen (Nat.le_add_right _ _)⟩
  | taken takes laidOut given aligned =>
      have hMiddle := takes.bears fits hStands hBears
      exact ⟨_, hStands.past (Scanner.chars_append_rest takes.scanned) _ _ _,
        given.bears fits (fun other hMem => isLayout_of_after laidOut hMem) hMiddle⟩

theorem Course.built (fits : Fits t) (course : Course t s tokens next) (built : s.Built t cs) :
    next.Built t cs := by
  induction course with
  | refl => exact built
  | step prior last ih => exact last.built fits ih

/-- What is dropped at a fault leaves a gap between the pieces; what was completed before stays. -/
theorem Pause.built (fits : Fits t) (pause : Pause t s fault next) (built : s.Built t cs) :
    next.Built t cs := by
  obtain ⟨offset, hStands, hBears⟩ := built
  cases pause with
  | @character c rest ahead unscanned unknown =>
      have hWhole : [c] ++ rest = s.ahead := ahead.symm
      exact ⟨_, hStands.over hWhole rfl, hBears.widen (Nat.le_add_right _ _)⟩
  | foreign unscanned known =>
      exact ⟨_, hStands.past (Scanner.chars_append_rest known) _ _ _,
        hBears.widen (Nat.le_add_right _ _)⟩
  | refused scanned counts kept refused =>
      exact ⟨_, hStands.past (Scanner.chars_append_rest scanned) _ _ _,
        (hBears.refused fits refused).widen (Nat.le_add_right _ _)⟩
  | laidOut takes laidOut stuck =>
      have hMiddle := takes.bears fits hStands hBears
      exact ⟨_, hStands.past (Scanner.chars_append_rest takes.scanned) _ _ _,
        stuck.bears fits (fun other hMem => isLayout_of_after laidOut hMem) hMiddle⟩
  | closing noText stuck =>
      have hWhole : [] ++ [] = s.ahead := noText.symm
      exact ⟨_, hStands.over hWhole rfl,
        stuck.bears fits (fun other hMem => isLayout_of_closing hMem) hBears⟩

/-- The parser is built from slices of the text wherever it resumes. -/
theorem ResumesAt.built (fits : Fits t) (resumes : ResumesAt t text count s) :
    s.Built t text.toList := by
  induction resumes with
  | opening => exact built_opening t text
  | again prior course pause inside ih => exact pause.built fits (course.built fits ih)

/-- A tree that a token ends has pieces of the text as its leaves. -/
theorem Accepts.slices (fits : Fits t) (accepts : s.Accepts t tree) (built : s.Built t cs) :
    ∃ low high, Slices cs tree.leaves low high := by
  obtain ⟨offset, hStands, hBears⟩ := built
  cases accepts with
  | scanned scanned accepted =>
      obtain ⟨low, hSlices⟩ := hBears.accepted fits accepted
      exact ⟨low, _, hSlices⟩
  | laidOut takes laidOut accepted =>
      obtain ⟨low, hSlices⟩ := accepted.slices fits
        (fun other hMem => isLayout_of_after laidOut hMem) (takes.bears fits hStands hBears)
      exact ⟨low, _, hSlices⟩
  | closing accepted =>
      obtain ⟨low, hSlices⟩ := accepted.slices fits
        (fun other hMem => isLayout_of_closing hMem) hBears
      exact ⟨low, _, hSlices⟩

end Standing

/-- The end of the text makes a tree of a stack by completing productions. -/
theorem offer_of_conclude {before : Option Token} (h : conclude t before stack = .parsed tree) :
    offer t (endToken before) stack = .accepted tree := by
  unfold conclude at h
  dsimp only at h
  split at h
  · rename_i other hOffer
    obtain rfl := Attempt.parsed.inj h
    exact hOffer
  · cases h
  · cases h

namespace Standing

variable {s : Standing} {text : String} {count : Nat}

/-- Whatever faults come before it, a tree has pieces of the text as its leaves. The induction is on the
faults, after each of which parsing goes on from a stack that bears such pieces. -/
theorem slices_of_outcome (fits : Fits t) (resumes : ResumesAt t text count s)
    (h : (s.attempt t).outcome = .tree tree) :
    ∃ low high, Slices text.toList tree.leaves low high := by
  induction count, s, resumes using ResumesAt.induction with
  | step count s resumes ih =>
      obtain ⟨tokens, final, hCourse, hStop⟩ := exists_course t s
      have hFinal := hCourse.built fits (resumes.built fits)
      generalize hAttempt : s.attempt t = a at hStop h
      cases hStop with
      | accepted accepts =>
          obtain rfl := Collector.Outcome.tree.inj h
          exact accepts.slices fits hFinal
      | @paused fault next pause =>
          rw [Attempt.outcome] at h
          split at h
          · cases h
          · rename_i hInside
            exact ih tokens final fault next hCourse pause (by simpa using hInside) h
      | unlaid takes noLayout =>
          rw [Attempt.outcome] at h
          split at h <;> cases h
      | misaligned takes laidOut given astray =>
          rw [Attempt.outcome] at h
          split at h <;> cases h
      | @ended top noText given =>
          rcases conclude_cases t (final.layout.closing.getLast?.or
            (final.layout.passed.or final.last)) top with ⟨found, hTree⟩ | ⟨fault, hEnd, hPaused⟩
          · rw [hTree, Attempt.outcome] at h
            obtain rfl := Collector.Outcome.tree.inj h
            obtain ⟨offset, hStands, hBears⟩ := hFinal
            have hTop := given.bears fits (fun other hMem => isLayout_of_closing hMem) hBears
            obtain ⟨low, hSlices⟩ := hTop.accepted fits (offer_of_conclude hTree)
            exact ⟨low, offset, hSlices⟩
          · simp [hPaused, Attempt.outcome, hEnd] at h

end Standing

theorem Slice.length_pos {offset : Nat} (slice : Slice cs token offset) : 0 < token.text.length := by
  rw [← String.length_toList]
  exact List.length_pos_iff.mpr fun hNone => slice.nonempty (String.toList_eq_nil_iff.mp hNone)

/-- No slice goes beyond the end of the text. -/
theorem Slice.end_le {offset : Nat} (slice : Slice cs token offset) :
    offset + token.text.length ≤ cs.length := by
  have hLength := congrArg List.length slice.text
  have hSome := slice.length_pos
  rw [List.length_take, List.length_drop, String.length_toList] at hLength
  omega

/-- Tokens that are pieces of a text, each behind those before it. -/
structure InOrder (cs : List Char) (tokens : List Token) : Prop where
  /-- Each token is a piece of the text, and no piece reaches into a later one. -/
  placed : ∃ placed : List (Token × Nat), placed.map Prod.fst = tokens
    ∧ (∀ piece ∈ placed, Slice cs piece.1 piece.2)
    ∧ placed.Pairwise fun earlier later => earlier.2 + earlier.1.text.length ≤ later.2
  /-- As lines and columns are read, each token starts behind those before it. -/
  starts : tokens.Pairwise fun earlier later => earlier.start.Before later.start
  /-- It does not start before they stop. -/
  apart : tokens.Pairwise fun earlier later => ¬later.start.Before earlier.stop

/-- Slices in a row have places that come one after the other. -/
theorem Slices.exists_placed {low : Nat} (slices : Slices cs tokens low high) :
    ∃ placed : List (Token × Nat), placed.map Prod.fst = tokens
      ∧ (∀ piece ∈ placed, Slice cs piece.1 piece.2 ∧ low ≤ piece.2)
      ∧ placed.Pairwise fun earlier later => earlier.2 + earlier.1.text.length ≤ later.2 := by
  induction slices with
  | nil => exact ⟨[], rfl, by simp, .nil⟩
  | @cons token tokens low offset high le slice rest ih =>
      obtain ⟨placed, hTokens, hPieces, hOrder⟩ := ih
      refine ⟨(token, offset) :: placed, by rw [List.map_cons, hTokens], ?_, ?_⟩
      · refine List.forall_mem_cons.mpr ⟨⟨slice, le⟩, fun piece hMem => ?_⟩
        obtain ⟨hPiece, hLow⟩ := hPieces piece hMem
        exact ⟨hPiece, by omega⟩
      · exact List.pairwise_cons.mpr ⟨fun piece hMem => (hPieces piece hMem).2, hOrder⟩

/-- Slices in a row stand in the text in their order. -/
theorem Slices.inOrder {low : Nat} (slices : Slices cs tokens low high) : InOrder cs tokens := by
  obtain ⟨placed, rfl, hPieces, hOrder⟩ := slices.exists_placed
  refine ⟨⟨placed, rfl, fun piece hMem => (hPieces piece hMem).1, hOrder⟩, ?_, ?_⟩
  · rw [List.pairwise_map]
    refine hOrder.imp_of_mem fun {earlier later} hEarlier hLater hLe => ?_
    have hFirst := (hPieces earlier hEarlier).1
    have hSecond := (hPieces later hLater).1
    have hEnd := hSecond.end_le
    have hLess : earlier.2 < later.2 := by
      have hLength := hFirst.length_pos
      omega
    rw [hFirst.start, hSecond.start]
    exact Position.ofOffset_before hLess (by omega)
  · rw [List.pairwise_map]
    refine hOrder.imp_of_mem fun {earlier later} hEarlier hLater hLe => ?_
    have hSecond := (hPieces later hLater).1
    have hEnd := hSecond.end_le
    rw [(hPieces earlier hEarlier).1.stop, hSecond.start]
    exact Position.ofOffset_not_before hLe (by omega)

end Parser

namespace Collector

/-- There is no tree, or its leaves are pieces of a text in order. -/
def Outcome.Traces (cs : List Char) : Outcome → Prop
  | .tree found => Parser.InOrder cs found.leaves
  | .noTree => True
  | .escaped _ => True

/-- A collector that comes to a tree has let the attempt come to its end. -/
theorem outcome_of_drive {c : Collector} {a : Parser.Attempt} {found : Tree}
    (h : (c.drive a).1 = .tree found) : a.outcome = .tree found := by
  induction a generalizing c with
  | parsed other => exact h
  | broken fault =>
      rw [drive] at h
      split at h <;> cases h
  | paused fault resume ih =>
      rw [drive] at h
      split at h
      · rename_i hOn
        obtain ⟨hInside, -⟩ := (c.goesOnAfter_record fault).mp hOn
        rw [Parser.Attempt.outcome, if_neg (by simp [hInside])]
        exact ih () h
      · cases h

/-- A tree of a text, with or without faults before it, has only pieces of the text as its leaves: from
left to right each has the characters that stand at its place, and none reaches into the next. Of the
table only that is used that fits it for places. -/
theorem traces_parse {t : Grammar.Table} (hFits : Parser.Fits t) (c : Collector) (text : String) :
    (c.parse t text).1.Traces text.toList := by
  cases hOutcome : (c.parse t text).1 with
  | noTree => trivial
  | escaped fault => trivial
  | tree found =>
      obtain ⟨low, high, hSlices⟩ :=
        Parser.Standing.slices_of_outcome hFits .opening (outcome_of_drive hOutcome)
      exact hSlices.inOrder

/-- The leaves of a tree of a text of Python are pieces of the text, in order. Nothing is said of what
the tree leaves out. -/
theorem leaves_trace_text (start : Grammar.Python.Start) (c : Collector) (text : String) :
    (c.parse (Grammar.Python.table start) text).1.Traces text.toList :=
  traces_parse (Parser.fits_python start) c text

end Collector

end SyntaxSurvey
