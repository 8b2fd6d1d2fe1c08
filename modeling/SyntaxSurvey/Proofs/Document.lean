import SyntaxSurvey.Grammar.Python
import SyntaxSurvey.Proofs.Reading
import SyntaxSurvey.Proofs.Text.Decoding

/-! What documents are read as: their text with a line feed for each line end and one at the end, in
whichever way the line ends were written and with or without a byte order mark. -/

namespace SyntaxSurvey

namespace Document

open Text

def utf8 (text : String) : List UInt8 :=
  text.toUTF8.data.toList

/-- The characters without the one that stands for a byte order mark. -/
def unmarked : List Char → List Char
  | [] => []
  | c :: cs => if c = '\ufeff' then cs else c :: cs

/-- The characters with one line feed for each pair of a carriage return and a line feed. -/
def joined : List Char → List Char
  | [] => []
  | '\r' :: '\n' :: rest => '\n' :: joined rest
  | c :: rest => c :: joined rest

/-- The characters with a line feed for each such pair and for each carriage return that is left. -/
def feeds (cs : List Char) : List Char :=
  (joined cs).map fun c => if c = '\r' then '\n' else c

/-- The characters, with a line feed added if they do not end with one. -/
def ended (cs : List Char) : List Char :=
  if ['\n'] <:+ cs then cs else cs ++ ['\n']

section Normal

variable {bytes : List UInt8} {cs line rest : List Char}

theorem terminated_eq_ended (cs : List Char) : terminated cs = ended cs := by
  have hEnd : cs.getLast? = some '\n' ↔ ['\n'] <:+ cs := by
    rw [List.getLast?_eq_some_iff]
    exact ⟨fun ⟨before, hCs⟩ => ⟨before, hCs.symm⟩, fun ⟨before, hCs⟩ => ⟨before, hCs.symm⟩⟩
  simp only [terminated, ended, hEnd]

/-- Line ends are made uniform from left to right, without regard to what was passed. -/
theorem uniformFrom_eq_feeds (done cs : List Char) :
    uniformFrom done cs = done.reverse ++ feeds cs := by
  induction done, cs using uniformFrom.induct with
  | case1 done => simp [uniformFrom, feeds, joined]
  | case2 done rest ih => simp [uniformFrom, feeds, joined, ih]
  | case3 done _ rest hPair ih =>
      rw [uniformFrom, ih, feeds, feeds, joined, List.map_cons, List.reverse_cons]
      · simp
      · exact hPair
      · exact hPair

theorem uniform_eq_feeds (cs : List Char) : uniform cs = feeds cs :=
  uniformFrom_eq_feeds [] cs

/-- The beginning of a byte order mark is no text's. -/
theorem decode_beginning : Utf8.decode [0xef] = .error ⟨0, [0xef], .ending⟩
    ∧ Utf8.decode [0xef, 0xbb] = .error ⟨0, [0xef, 0xbb], .ending⟩ := by
  decide +kernel

/-- The characters of which the bytes start with the byte order mark start with the character. -/
theorem exists_of_encode_eq_mark {rest : List UInt8} (hBytes : Utf8.encode cs = mark ++ rest) :
    ∃ others, cs = '\ufeff' :: others := by
  obtain ⟨offset, hFirst⟩ := Utf8.decodeFrom_encodeChar '\ufeff' 0 [] rest
  have hDecode : Utf8.decodeFrom offset ['\ufeff'] rest = .ok cs := by
    rw [← hFirst, ← Utf8.decode_encode cs, hBytes]
    rfl
  obtain ⟨others, hCs, -⟩ := Utf8.exists_encode_of_decodeFrom hDecode
  exact ⟨others, hCs⟩

/-- Bytes without a mark, or the beginning of one and nothing else, are left as they are. -/
theorem withoutMark_of_ne (hMark : ∀ rest, bytes ≠ mark ++ rest) (hOne : bytes ≠ [0xef])
    (hTwo : bytes ≠ [0xef, 0xbb]) : withoutMark bytes = bytes := by
  rw [withoutMark]
  · exact hMark
  · exact hOne
  · exact hTwo

/-- No text is encoded as an unfinished mark. -/
theorem encode_ne_beginning (cs : List Char) :
    Utf8.encode cs ≠ [0xef] ∧ Utf8.encode cs ≠ [0xef, 0xbb] := by
  obtain ⟨hOne, hTwo⟩ := decode_beginning
  have hDecode := Utf8.decode_encode cs
  constructor
  · intro hBytes
    rw [hBytes, hOne] at hDecode
    cases hDecode
  · intro hBytes
    rw [hBytes, hTwo] at hDecode
    cases hDecode

/-- The mark of a text is its first character, where that is the one for marks. -/
theorem withoutMark_encode (cs : List Char) :
    withoutMark (Utf8.encode cs) = Utf8.encode (unmarked cs) := by
  cases cs with
  | nil => rfl
  | cons c cs =>
      by_cases hMark : c = '\ufeff'
      · subst hMark
        rfl
      · obtain ⟨hOne, hTwo⟩ := encode_ne_beginning (c :: cs)
        rw [unmarked, if_neg hMark]
        refine withoutMark_of_ne (fun rest hBytes => ?_) hOne hTwo
        obtain ⟨others, hCs⟩ := exists_of_encode_eq_mark hBytes
        cases hCs
        exact hMark rfl

/-- The bytes of a text, whatever its characters, are read as its text without the mark. -/
theorem read_encode (cs : List Char) :
    read (Utf8.encode cs) = .ok (String.ofList (ended (feeds (unmarked cs)))) := by
  rw [read, withoutMark_encode, Utf8.decode_encode, Except.map, terminated_eq_ended,
    uniform_eq_feeds]

/-- What can be read holds the bytes of characters, or is the beginning of a mark. -/
theorem exists_of_read {text : String} (hRead : read bytes = .ok text) :
    ∃ cs, withoutMark bytes = Utf8.encode cs ∧ text = String.ofList (ended (feeds cs)) := by
  rw [read] at hRead
  cases hDecode : Utf8.decode (withoutMark bytes) with
  | error defect =>
      rw [hDecode] at hRead
      cases hRead
  | ok cs =>
      rw [hDecode, Except.map, terminated_eq_ended, uniform_eq_feeds] at hRead
      exact ⟨cs, Utf8.decode_eq_ok_iff.mp hDecode, (Except.ok.inj hRead).symm⟩

/-- No carriage return is left. -/
theorem not_mem_feeds (cs : List Char) : '\r' ∉ feeds cs := by
  intro hMem
  obtain ⟨c, -, hc⟩ := List.mem_map.mp hMem
  split at hc
  next => cases hc
  next hNot => exact hNot hc

theorem feeds_cons {c : Char} (hc : c ≠ '\r') (cs : List Char) : feeds (c :: cs) = c :: feeds cs := by
  rw [feeds, joined, List.map_cons, if_neg hc]
  · rfl
  · rintro rest rfl -
    exact hc rfl

/-- What has no carriage return stays in front of what has. -/
theorem feeds_append (hLine : '\r' ∉ line) (rest : List Char) :
    feeds (line ++ rest) = line ++ feeds rest := by
  induction line with
  | nil => rfl
  | cons c line ih =>
      rw [List.mem_cons, not_or] at hLine
      rw [List.cons_append, feeds_cons (Ne.symm hLine.1), ih hLine.2, List.cons_append]

theorem feeds_of_not_mem (hCs : '\r' ∉ cs) : feeds cs = cs := by
  have hAll := feeds_append hCs []
  simpa [feeds, joined] using hAll

theorem ended_of_suffix (hEnd : ['\n'] <:+ cs) : ended cs = cs :=
  if_pos hEnd

/-- A text that is ended has a line feed at its end. -/
theorem suffix_ended (cs : List Char) : ['\n'] <:+ ended cs := by
  rw [ended]
  split
  next hEnd => exact hEnd
  next => exact List.suffix_append _ _

theorem not_mem_ended (hCs : '\r' ∉ cs) : '\r' ∉ ended cs := by
  rw [ended]
  split
  next => exact hCs
  next =>
      rw [List.mem_append, List.mem_singleton, not_or]
      exact ⟨hCs, by decide⟩

end Normal

inductive LineEnd where
  | lf
  | crlf
  | cr

def LineEnd.chars : LineEnd → List Char
  | .lf => ['\n']
  | .crlf => ['\r', '\n']
  | .cr => ['\r']

/-- The text of some lines, with a line end between any two and, if it is `closed`, one at its
end. -/
def written (e : LineEnd) (closed : Bool) (lines : List (List Char)) : List Char :=
  e.chars.intercalate lines ++ if closed then e.chars else []

def Line (line : List Char) : Prop :=
  '\r' ∉ line ∧ '\n' ∉ line

section Lines

variable {e : LineEnd} {closed : Bool} {line : List Char} {lines : List (List Char)}

theorem written_singleton (e : LineEnd) (closed : Bool) (line : List Char) :
    written e closed [line] = line ++ if closed then e.chars else [] := by
  simp [written]

/-- Lines are written one after the other, with a line end between them. -/
theorem written_cons (e : LineEnd) (closed : Bool) (line next : List Char)
    (lines : List (List Char)) :
    written e closed (line :: next :: lines)
      = line ++ (e.chars ++ written e closed (next :: lines)) := by
  simp [written, List.intercalate]

/-- A line end is one line feed, unless a line feed follows a carriage return. -/
theorem feeds_chars {rest : List Char} (hRest : e = .cr → rest.head? ≠ some '\n') :
    feeds (e.chars ++ rest) = '\n' :: feeds rest := by
  cases e with
  | lf => exact feeds_cons (by decide) rest
  | crlf => rfl
  | cr =>
      cases rest with
      | nil => rfl
      | cons c rest =>
          have hc : c ≠ '\n' := fun hc => hRest rfl (congrArg some hc)
          show feeds ('\r' :: c :: rest) = '\n' :: feeds (c :: rest)
          rw [feeds, joined, List.map_cons, if_pos rfl]
          · rfl
          · rintro others - hEq
            exact hc (List.cons.inj hEq).1

/-- A character that is in no line and in no line end is not in what is written. -/
theorem not_mem_written {c : Char} (hEnd : c ∉ e.chars) (hLines : ∀ line ∈ lines, c ∉ line) :
    c ∉ written e closed lines := by
  have hClosed : c ∉ if closed then e.chars else [] := by
    split
    next => exact hEnd
    next => exact List.not_mem_nil
  induction lines with
  | nil => simpa [written] using hClosed
  | cons line lines ih =>
      rw [List.forall_mem_cons] at hLines
      cases lines with
      | nil =>
          rw [written_singleton, List.mem_append, not_or]
          exact ⟨hLines.1, hClosed⟩
      | cons next lines =>
          rw [written_cons, List.mem_append, List.mem_append, not_or, not_or]
          exact ⟨hLines.1, hEnd, ih hLines.2⟩

/-- However the line ends were written, the text has line feeds. -/
theorem feeds_written (hLines : ∀ line ∈ lines, Line line) :
    feeds (written e closed lines) = written .lf closed lines := by
  have hClosed : feeds (if closed then e.chars else [])
      = if closed then LineEnd.lf.chars else [] := by
    cases closed with
    | false => rfl
    | true => cases e <;> rfl
  induction lines with
  | nil => simpa [written] using hClosed
  | cons line lines ih =>
      rw [List.forall_mem_cons] at hLines
      cases lines with
      | nil => rw [written_singleton, written_singleton, feeds_append hLines.1.1, hClosed]
      | cons next lines =>
          -- A lone carriage return must not meet a line feed: with that line end there is none.
          have hRest : e = .cr → (written e closed (next :: lines)).head? ≠ some '\n' := by
            rintro rfl hHead
            exact not_mem_written (by decide) (fun line hLine => (hLines.2 line hLine).2)
              (List.mem_of_head? hHead)
          rw [written_cons, written_cons, feeds_append hLines.1.1, feeds_chars hRest,
            ih hLines.2]
          rfl

theorem suffix_written {last : List Char} (hLast : lines.getLast? = some last) :
    last <:+ written e false lines := by
  induction lines with
  | nil => cases hLast
  | cons line lines ih =>
      cases lines with
      | nil =>
          cases hLast
          exact ⟨[], by simp [written]⟩
      | cons next lines =>
          rw [written_cons]
          exact (ih hLast).trans ((List.suffix_append _ _).trans (List.suffix_append _ _))

/-- A closed text ends with a line feed, and one that is not closed gets it, unless its last line is
empty and not its only one. -/
theorem ended_written (hLast : closed = true ∨ lines.getLast? ≠ some [] ∨ lines = [[]])
    (hLines : ∀ line ∈ lines, Line line) :
    ended (written .lf closed lines) = written .lf true lines := by
  cases closed with
  | true => exact ended_of_suffix ⟨LineEnd.lf.chars.intercalate lines, rfl⟩
  | false =>
      have hNot : ¬['\n'] <:+ written .lf false lines := by
        intro hFeed
        cases hLine : lines.getLast? with
        | none =>
            rw [List.getLast?_eq_none_iff.mp hLine] at hFeed
            exact absurd hFeed (by decide)
        | some last =>
            rcases hLast with hTrue | hSome | rfl
            · cases hTrue
            · have hEmpty : last ≠ [] := fun hNil => hSome (hNil ▸ hLine)
              have hEnd : ['\n'] <:+ last :=
                List.suffix_of_suffix_length_le hFeed (suffix_written hLine)
                  (List.length_pos_iff.mpr hEmpty)
              exact (hLines last (List.mem_of_getLast? hLine)).2
                (hEnd.subset (List.mem_singleton_self _))
            · exact absurd hFeed (by decide)
      rw [ended, if_neg hNot, written, written]
      simp [LineEnd.chars]

theorem written_cons_cons (e : LineEnd) (closed : Bool) (c : Char) (line : List Char)
    (lines : List (List Char)) :
    written e closed ((c :: line) :: lines) = c :: written e closed (line :: lines) := by
  cases lines with
  | nil => rfl
  | cons next lines =>
      rw [written_cons, written_cons]
      rfl

/-- What a written text starts with. -/
theorem head?_written {c : Char} (hHead : (written e closed lines).head? = some c) :
    c ∈ e.chars ∨ ∃ line others, lines = (c :: line) :: others := by
  cases lines with
  | nil =>
      cases closed with
      | false => cases hHead
      | true => exact Or.inl (List.mem_of_head? hHead)
  | cons line lines =>
      cases line with
      | cons d line =>
          rw [written_cons_cons] at hHead
          obtain rfl : d = c := Option.some.inj hHead
          exact Or.inr ⟨line, lines, rfl⟩
      | nil =>
          cases lines with
          | nil =>
              cases closed with
              | false => cases hHead
              | true => exact Or.inl (List.mem_of_head? hHead)
          | cons next lines =>
              rw [written_cons] at hHead
              cases e <;> exact Or.inl (List.mem_of_head? hHead)

theorem unmarked_of_ne {cs : List Char} (hHead : cs.head? ≠ some '\ufeff') : unmarked cs = cs := by
  cases cs with
  | nil => rfl
  | cons c cs => exact if_neg fun hMark => hHead (congrArg some hMark)

/-- Without a byte order mark, a written text is that of lines of the same kind. -/
theorem exists_unmarked_written (hLines : ∀ line ∈ lines, Line line) :
    ∃ others, (∀ line ∈ others, Line line)
      ∧ (∀ e closed, unmarked (written e closed lines) = written e closed others)
      ∧ (lines.getLast? ≠ some [] → others.getLast? ≠ some [] ∨ others = [[]]) := by
  by_cases hMark : ∃ line others, lines = ('\ufeff' :: line) :: others
  · obtain ⟨line, others, rfl⟩ := hMark
    rw [List.forall_mem_cons] at hLines
    refine ⟨line :: others, ?_, fun e closed => ?_, fun hLast => ?_⟩
    · exact List.forall_mem_cons.mpr
        ⟨⟨fun hMem => hLines.1.1 (List.mem_cons_of_mem _ hMem),
          fun hMem => hLines.1.2 (List.mem_cons_of_mem _ hMem)⟩, hLines.2⟩
    · rw [written_cons_cons]
      rfl
    · cases others with
      | cons next others => exact Or.inl hLast
      | nil =>
          cases line with
          | nil => exact Or.inr rfl
          | cons c line => exact Or.inl (by simp)
  · refine ⟨lines, hLines, fun e closed => unmarked_of_ne fun hHead => ?_, Or.inl⟩
    rcases head?_written hHead with hEnd | hFirst
    · cases e <;> exact absurd hEnd (by decide)
    · exact hMark hFirst

end Lines

/-- What a text is read as: with a line feed for each line end, and with one at its end. -/
def normal (text : String) : String :=
  String.ofList (ended (feeds text.toList))

def saved (e : LineEnd) (closed : Bool) (lines : List (List Char)) : List UInt8 :=
  utf8 (String.ofList (written e closed lines))

/-- A text is read back without its mark, with line feeds for its line ends and one at its end. -/
theorem read_utf8 (text : String) :
    read (utf8 text) = .ok (String.ofList (ended (feeds (unmarked text.toList)))) := by
  rw [utf8, ← Utf8.encode_toList, read_encode]

/-- A text with a mark in front is read as its normal form. -/
theorem read_mark_utf8 (text : String) : read (mark ++ utf8 text) = .ok (normal text) := by
  have hBytes : mark ++ utf8 text = Utf8.encode ('\ufeff' :: text.toList) := by
    rw [utf8, ← Utf8.encode_toList]
    rfl
  rw [hBytes, read_encode]
  rfl

/-- How the line ends are written makes no difference, unless the last line is empty and only closed
in one case. -/
theorem read_saved {lines : List (List Char)} (hLines : ∀ line ∈ lines, Line line)
    (e other : LineEnd) {closed otherClosed : Bool}
    (hLast : closed = otherClosed ∨ lines.getLast? ≠ some []) :
    read (saved e closed lines) = read (saved other otherClosed lines) := by
  obtain ⟨others, hOthers, hUnmarked, hEmpty⟩ := exists_unmarked_written hLines
  simp only [saved, read_utf8, String.toList_ofList, hUnmarked, feeds_written hOthers]
  rcases hLast with rfl | hLast
  · rfl
  · rw [ended_written (Or.inr (hEmpty hLast)) hOthers, ended_written (Or.inr (hEmpty hLast)) hOthers]

/-- What was read is read back as it is, unless it begins with the character for marks. -/
theorem read_utf8_eq_iff {bytes : List UInt8} {text : String} (hRead : read bytes = .ok text) :
    read (utf8 text) = .ok text ↔ text.toList.head? ≠ some '\ufeff' := by
  obtain ⟨cs, -, hText⟩ := exists_of_read hRead
  have hChars : text.toList = ended (feeds cs) := by rw [hText, String.toList_ofList]
  have hFeeds : '\r' ∉ text.toList := hChars ▸ not_mem_ended (not_mem_feeds cs)
  have hEnd : ['\n'] <:+ text.toList := hChars ▸ suffix_ended _
  rw [read_utf8]
  constructor
  · intro hSame hHead
    obtain ⟨rest, hRest⟩ : ∃ rest, text.toList = '\ufeff' :: rest := by
      cases hList : text.toList with
      | nil => rw [hList] at hHead; cases hHead
      | cons c rest => rw [hList] at hHead; cases hHead; exact ⟨rest, rfl⟩
    have hShort : ['\n'] <:+ rest := by
      rw [hRest, List.suffix_cons_iff] at hEnd
      exact hEnd.resolve_left (by simp)
    have hLess : ended (feeds (unmarked text.toList)) = rest := by
      rw [hRest] at hFeeds ⊢
      rw [show unmarked ('\ufeff' :: rest) = rest from rfl,
        feeds_of_not_mem fun hMem => hFeeds (List.mem_cons_of_mem _ hMem), ended_of_suffix hShort]
    rw [hLess] at hSame
    have hLength := congrArg (fun text => text.toList.length) (Except.ok.inj hSame)
    simp [hRest] at hLength
  · intro hHead
    rw [unmarked_of_ne hHead, feeds_of_not_mem hFeeds, ended_of_suffix hEnd, String.ofList_toList]

/-- Reading normalises. A text is read with one line feed for each line end and with one at its end,
whether or not a byte order mark stands before it, so that nothing that is read has a carriage
return. How the lines of a file end makes no difference, nor does it whether the last one is ended,
unless that line is empty: such files are read alike and agree in what is found in them. What was
read is read again as it is, but for a byte order mark that it starts with. -/
theorem read_normalises (t : Grammar.Table) :
    (∀ text : String, text.toList.head? ≠ some '\ufeff' →
      read (utf8 text) = .ok (normal text) ∧ read (mark ++ utf8 text) = .ok (normal text)) ∧
    (∀ bytes text, read bytes = .ok text → '\r' ∉ text.toList ∧ ['\n'] <:+ text.toList) ∧
    (∀ lines, (∀ line ∈ lines, Line line) → ∀ e other closed otherClosed,
      (closed = otherClosed ∨ lines.getLast? ≠ some []) → ∃ text,
        read (saved e closed lines) = .ok text ∧ read (saved other otherClosed lines) = .ok text ∧
        ∀ (files later : FileSystem) path otherPath took otherTook,
          files.read path = .ok (saved e closed lines) →
          later.read otherPath = .ok (saved other otherClosed lines) →
          (Reading.ofFile t later otherPath otherTook).Agrees
            (Reading.ofFile t files path took)) ∧
    ∀ bytes text, read bytes = .ok text →
      (read (utf8 text) = .ok text ↔ text.toList.head? ≠ some '\ufeff') := by
  refine ⟨fun text hHead => ⟨?_, read_mark_utf8 text⟩, fun bytes text hRead => ?_,
    fun lines hLines e other closed otherClosed hLast => ?_, fun _ _ => read_utf8_eq_iff⟩
  · rw [read_utf8, unmarked_of_ne hHead, normal]
  · obtain ⟨cs, -, rfl⟩ := exists_of_read hRead
    rw [String.toList_ofList]
    exact ⟨not_mem_ended (not_mem_feeds cs), suffix_ended _⟩
  · obtain ⟨text, hText⟩ : ∃ text, read (saved e closed lines) = .ok text := ⟨_, read_utf8 _⟩
    have hSame : read (saved other otherClosed lines) = .ok text := by
      rw [← hText, read_saved hLines e other hLast]
    exact ⟨text, hText, hSame, fun files later path otherPath took otherTook hRead hOther =>
      Reading.ofFile_agrees t files path took otherTook hRead hOther hText hSame⟩

/-- A text with all three line ends, and two files of two lines. -/
theorem read_normalises_letters :
    let files : FileSystem := ⟨.directory [("a", .file [0x78, 0x0d, 0x0a, 0x79]),
      ("b", .file [0x78, 0x0d, 0x79, 0x0d])], []⟩
    read (mark ++ utf8 "x\r\r\ny") = .ok "x\n\ny\n" ∧ read [] = .ok "\n"
      ∧ read (utf8 "x\n\ny\n") = .ok "x\n\ny\n"
      ∧ (Reading.ofFile (Grammar.Python.table .file) files (.ofString "b") ⟨1⟩).Agrees
        (Reading.ofFile (Grammar.Python.table .file) files (.ofString "a") ⟨0⟩) := by
  intro files
  obtain ⟨hText, -, hLines, hAgain⟩ := read_normalises (Grammar.Python.table .file)
  have hMixed := (hText "x\r\r\ny" (by decide +kernel)).2
  have hEmpty := (hText "" (by decide +kernel)).1
  rw [show normal "x\r\r\ny" = "x\n\ny\n" by decide +kernel] at hMixed
  rw [show normal "" = "\n" by decide +kernel] at hEmpty
  obtain ⟨text, -, -, hAgrees⟩ := hLines [['x'], ['y']]
    (by simp [Line]) .crlf .cr false true (Or.inr (by decide))
  exact ⟨hMixed, hEmpty, (hAgain _ _ hMixed).mpr (by decide +kernel),
    hAgrees files files (.ofString "a") (.ofString "b") ⟨0⟩ ⟨1⟩ (by decide +kernel)
      (by decide +kernel)⟩

end Document

end SyntaxSurvey
