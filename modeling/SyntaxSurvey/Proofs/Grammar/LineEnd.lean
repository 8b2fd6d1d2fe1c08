import SyntaxSurvey.Grammar.Python
import SyntaxSurvey.Proofs.Grammar.Pattern

/-! Line ends of Python. A lexeme that counts as a line end has a line feed in it, or it is a remark
that takes all of the text that is left. -/

namespace SyntaxSurvey.Grammar

open Pattern

namespace Python

/-- What a match of line ends takes when it starts with a line feed or a carriage return. -/
theorem lineEnd_leads {next : Continuation} {place : Place} {n : Nat}
    (h : lineEnd.run place next = some n) :
    ∃ chars other, place.Leads chars other ∧ '\n' ∈ chars ∧ next other = some n := by
  rw [lineEnd, run_seq] at h
  obtain ⟨cs, middle, hFirst, hRest⟩ := run_leads _ h
  rw [oneOf, run_one] at hRest
  split at hRest
  · rename_i c rest hAhead
    split at hRest
    · rename_i hAccepts
      obtain rfl : c = '\n' := by simpa using hAccepts
      have hSecond : middle.Leads ['\n'] ⟨some '\n', rest, middle.taken + 1⟩ := ⟨hAhead, rfl⟩
      exact ⟨_, _, hFirst.trans hSecond, by simp, hRest⟩
    · simp at hRest
  · simp at hRest

/-- At a line feed a line end matches. -/
theorem lineEnd_isSome {next : Continuation} (hNext : ∀ place, (next place).isSome)
    {place : Place} {rest : List Char} (hAhead : place.ahead = '\n' :: rest) :
    (lineEnd.run place next).isSome := by
  simp [lineEnd, Pattern.optional, oneOf, run_seq, run_alt, run_one, run_empty, hAhead, hNext]

/-- A line end with the indentation after it. -/
theorem indentedLineEnd_leads {next : Continuation} {place : Place} {n : Nat}
    (h : (seq lineEnd (many (oneOf "\t "))).run place next = some n) :
    ∃ chars other, place.Leads chars other ∧ '\n' ∈ chars ∧ next other = some n := by
  rw [run_seq] at h
  obtain ⟨cs, middle, hFirst, hFeed, hRest⟩ := lineEnd_leads h
  obtain ⟨ds, other, hSecond, hNext⟩ := run_leads _ hRest
  exact ⟨_, other, hFirst.trans hSecond, List.mem_append_left _ hFeed, hNext⟩

/-- At a line feed, a line end with what indents the next line can be matched. -/
theorem indentedLineEnd_isSome {next : Continuation} (hNext : ∀ place, (next place).isSome)
    {place : Place} {rest : List Char} (hAhead : place.ahead = '\n' :: rest) :
    ((seq lineEnd (many (oneOf "\t "))).run place next).isSome := by
  rw [run_seq]
  exact lineEnd_isSome (many_isSome _ hNext) hAhead

/-- A remark stops before a line feed or at the end of the text. -/
theorem remark_leads {next : Continuation} (hNext : ∀ place, (next place).isSome)
    {place : Place} {n : Nat} (h : remark.run place next = some n) :
    ∃ chars other, place.Leads chars other ∧ next other = some n ∧
      (other.ahead = [] ∨ ∃ rest, other.ahead = '\n' :: rest) := by
  rw [remark, run_seq] at h
  obtain ⟨cs, middle, hFirst, hRest⟩ := run_leads _ h
  rw [noneOf] at hRest
  obtain ⟨other, hSecond, hAhead, hRun⟩ :=
    many_one_eq (fun c => !"\n".toList.contains c) hNext middle
  refine ⟨_, other, hFirst.trans hSecond, hRun.symm.trans hRest, ?_⟩
  cases hOther : other.ahead with
  | nil => exact .inl rfl
  | cons c rest =>
      rw [hOther] at hAhead
      have hStops := List.head?_dropWhile_not (fun c => !"\n".toList.contains c) middle.ahead
      rw [← hAhead] at hStops
      exact .inr ⟨rest, by simpa using hStops⟩

/-- Line ends and remarks have a line feed or take the whole text. A match that has passed a line feed
has it, whatever comes after. -/
theorem newlines_match {cs : List Char} {n : Nat} (h : newlines.matchLength? cs = some n) :
    '\n' ∈ cs.take n ∨ cs.drop n = [] := by
  have hDone : ∀ place : Place, (some place.taken).isSome := fun _ => rfl
  have hMany := many_isSome (alt (seq lineEnd (many (oneOf "\t "))) remark) hDone
  have hFeed {ds : List Char} {middle : Place} (hLeads : Place.Leads ⟨none, cs, 0⟩ ds middle)
      (hMem : '\n' ∈ ds)
      (hRest : ∃ es other, middle.Leads es other ∧ some other.taken = some n) :
      '\n' ∈ cs.take n := by
    obtain ⟨es, other, hLast, hTaken⟩ := hRest
    obtain ⟨hAhead, hLength⟩ := hLeads.trans hLast
    obtain rfl := Option.some.inj hTaken
    change cs = _ at hAhead
    rw [hAhead, hLength, Nat.zero_add, List.take_left]
    exact List.mem_append_left _ hMem
  rw [matchLength?, newlines, oneOrMore, run_seq, run_alt] at h
  split at h
  · rename_i taken hTaken
    obtain ⟨ds, middle, hLeads, hMem, hRest⟩ := indentedLineEnd_leads (hTaken.trans h)
    exact .inl (hFeed hLeads hMem (run_leads _ hRest))
  · obtain ⟨ds, middle, hLeads, hRest, hStops⟩ := remark_leads hMany h
    rcases hStops with hEnd | ⟨rest, hStop⟩
    · obtain ⟨es, other, hLast, hTaken⟩ := run_leads _ hRest
      obtain ⟨hAhead, hLength⟩ := hLeads.trans hLast
      obtain rfl := Option.some.inj hTaken
      have hOther : other.ahead = [] := by
        have hSplit := hLast.1
        rw [hEnd] at hSplit
        exact (List.append_eq_nil_iff.mp hSplit.symm).2
      change cs = _ at hAhead
      rw [hOther, List.append_nil] at hAhead
      exact .inr (by rw [hAhead, hLength, Nat.zero_add, List.drop_length])
    · rw [run_many, hStop, iterate_cons, if_pos rfl] at hRest
      have hSome := indentedLineEnd_isSome
        (iterate_greedy_isSome
          (fun place next => (alt (seq lineEnd (many (oneOf "\t "))) remark).run place next)
          hDone rest) hStop
      obtain ⟨taken, hTaken⟩ := Option.isSome_iff_exists.mp hSome
      rw [run_alt, hTaken] at hRest
      obtain ⟨es, other, hFirst, hMem, hLast⟩ := indentedLineEnd_leads (hTaken.trans hRest)
      exact .inl (hFeed (hLeads.trans hFirst) (List.mem_append_right _ hMem)
        (iterate_leads (fun _ _ _ => run_leads _) _ hLast))

/-- The only terminal of line ends is the one with that pattern. -/
theorem spelling_of_newline {terminal : Terminal} (hMem : terminal ∈ terminals)
    (hName : terminal.name = "_NEWLINE") : terminal.spelling = .pattern newlines := by
  rw [terminals, List.mem_append, List.mem_map, List.mem_map] at hMem
  rcases hMem with ⟨⟨name, pattern⟩, hMem, rfl⟩ | ⟨⟨name, chars⟩, hMem, rfl⟩
  · obtain rfl : name = "_NEWLINE" := hName
    simpa [patterned] using hMem
  · obtain rfl : name = "_NEWLINE" := hName
    simp [fixed] at hMem

end Python

namespace Scanner

variable {s : Scanner} {cs : List Char} {lexeme : Lexeme}

/-- A lexeme comes from a terminal that is tried, and its kind is that terminal or, for an
identifier, one of the words. -/
theorem next?_source (h : s.next? cs = some lexeme) :
    ∃ terminal ∈ s.tried, ∃ n, terminal.matchLength? cs = some n ∧
      lexeme.chars = cs.take n ∧ lexeme.rest = cs.drop n ∧
      (lexeme.kind = terminal.name ∨ (String.ofList lexeme.chars, lexeme.kind) ∈ s.words) := by
  obtain ⟨terminal, hMem, hTaken⟩ := List.exists_of_findSome?_eq_some h
  unfold take? at hTaken
  split at hTaken
  · rename_i c rest n hMatch
    obtain rfl := Option.some.inj hTaken
    refine ⟨terminal, hMem, n + 1, hMatch, rfl, rfl, ?_⟩
    dsimp only
    split
    · cases hWord : s.words.lookup (String.ofList ((c :: rest).take (n + 1))) with
      | none => exact .inl rfl
      | some word =>
          obtain ⟨before, after, hWords, _⟩ := List.lookup_eq_some_iff.mp hWord
          exact .inr (by rw [hWords]; simp)
    · exact .inl rfl
  · simp at hTaken

variable {terminals : List Terminal} {accepts : String → Bool}

/-- A scanner tries terminals of the language only. -/
theorem mem_of_tried {terminal : Terminal} (h : terminal ∈ (ofAccepted terminals accepts).tried) :
    terminal ∈ terminals := by
  simp only [ofAccepted, List.partition_eq_filter_filter, List.mem_filter] at h
  exact h.1.1

/-- The words of a scanner are terminals that are literals. -/
theorem mem_of_words {word kind : String}
    (h : (word, kind) ∈ (ofAccepted terminals accepts).words) :
    ∃ terminal ∈ terminals, terminal.name = kind ∧ ∃ chars, terminal.spelling = .literal chars := by
  simp only [ofAccepted, List.partition_eq_filter_filter, List.mem_filterMap, List.mem_filter] at h
  obtain ⟨terminal, ⟨⟨hMem, _⟩, _⟩, hWord⟩ := h
  split at hWord
  · rename_i chars hSpelling
    exact ⟨terminal, hMem, by simpa using (Prod.mk.inj (Option.some.inj hWord)).2, chars, hSpelling⟩
  · simp at hWord

end Scanner

/-- The scanner of a row is one for the terminals of the language, whichever of them it accepts. -/
theorem Table.exists_rowOf_scanner_eq (language : Language) (productions : Array Production)
    (moves : List (Symbol × Nat)) (complete : List (Nat × List String)) :
    ∃ accepts, (Table.rowOf language productions moves complete).scanner =
      .ofAccepted language.terminals accepts := by
  dsimp only [Table.rowOf]
  exact ⟨_, rfl⟩

/-- Every state of a table scans for some of the terminals of its language. -/
theorem Table.exists_scanner_eq (language : Language) (state : Nat) :
    ∃ accepts, (Table.ofLanguage language).scanner state =
      .ofAccepted language.terminals accepts := by
  unfold Table.scanner
  split
  · rename_i row hRow
    rw [Table.ofLanguage, Array.getElem?_map, Option.map_eq_some_iff] at hRow
    obtain ⟨⟨moves, number⟩, _, rfl⟩ := hRow
    exact exists_rowOf_scanner_eq ..
  · exact ⟨fun _ => true, rfl⟩

/-- In a text of Python a line end has a line feed, or nothing comes after it. -/
theorem Python.newline_or_last {start : Python.Start} {state : Nat} {cs : List Char}
    {lexeme : Lexeme} (h : ((Python.table start).scanner state).next? cs = some lexeme)
    (hKind : lexeme.kind = "_NEWLINE") : '\n' ∈ lexeme.chars ∨ lexeme.rest = [] := by
  obtain ⟨accepts, hScanner⟩ := Table.exists_scanner_eq (Python.language start) state
  rw [Python.table, hScanner] at h
  obtain ⟨terminal, hTried, n, hMatch, hChars, hRest, hSource⟩ := Scanner.next?_source h
  rw [hKind] at hSource
  rcases hSource with hName | hWord
  · have hSpelling := Python.spelling_of_newline (Scanner.mem_of_tried hTried) hName.symm
    rw [Terminal.matchLength?, hSpelling] at hMatch
    rw [hChars, hRest]
    exact Python.newlines_match hMatch
  · obtain ⟨other, hMem, hName, chars, hLiteral⟩ := Scanner.mem_of_words hWord
    have hSpelling := Python.spelling_of_newline hMem hName
    simp [hLiteral] at hSpelling

end SyntaxSurvey.Grammar
