import Mathlib.Data.List.TakeWhile
import Mathlib.Tactic.FinCases
import Mathlib.Tactic.IntervalCases
import SyntaxSurvey.Graph.Reader
import SyntaxSurvey.Proofs.Grammar.Names
import SyntaxSurvey.Proofs.Graph.Drawing
import SyntaxSurvey.Proofs.Graph.Label

/-! The text of a graph. Read by the lexical rules of DOT it is one piece for each label and a frame
of other pieces, which only depends on numbers and shapes; read by its grammar it has the nodes and
edges of the graph, and no attributes but theirs. -/

namespace SyntaxSurvey

mutual

/-- The labels of rules in a tree and the kinds of its tokens. -/
def Tree.names : Tree → List String
  | .node label children => label :: namesOf children
  | .leaf token => [token.kind]
  | .absent => []

def Tree.namesOf : List Tree → List String
  | [] => []
  | tree :: trees => names tree ++ namesOf trees

end

mutual

/-- What is to be read of a tree, each node before its children. -/
def Tree.wordings : Tree → List String
  | .node label children => label :: wordingsOf children
  | .leaf token => [Graph.wording token]
  | .absent => []

def Tree.wordingsOf : List Tree → List String
  | [] => []
  | tree :: trees => wordings tree ++ wordingsOf trees

end

namespace Graph

open Lexeme (allWithin next? isWordStart isWordChar)

/-- What satisfies a condition is taken away up to the first character that does not. -/
theorem takeWhile_dropWhile_append {p : Char → Bool} {word : List Char} {d : Char}
    (hWord : ∀ c ∈ word, p c = true) (hEnd : p d = false) (rest : List Char) :
    (word ++ d :: rest).takeWhile p = word ∧ (word ++ d :: rest).dropWhile p = d :: rest := by
  rw [List.takeWhile_append_of_pos hWord, List.dropWhile_append_of_pos hWord]
  simp [hEnd]

/-- Digits, perhaps with a point among them, are read up to what cannot be part of a number. -/
theorem readNumeral?_append {digits after : List Char} {d : Char}
    (hNumeral : isUnsignedNumeral digits = true) (hDigit : d.isDigit = false) (hPoint : d ≠ '.') :
    Lexeme.readNumeral? (digits ++ d :: after) = some (digits, d :: after) := by
  obtain ⟨whole, hWhole, ⟨rfl, hSome⟩ | ⟨fraction, rfl, hFraction, hSome⟩⟩ :=
    exists_digits_of_isUnsignedNumeral hNumeral
  · obtain ⟨hTake, hDrop⟩ := takeWhile_dropWhile_append hWhole hDigit after
    rw [Lexeme.readNumeral?, hTake, hDrop]
    simp [hPoint, hSome]
  · obtain ⟨hTake, hDrop⟩ := takeWhile_dropWhile_append hFraction hDigit after
    have hPart : '.'.isDigit = false := rfl
    obtain ⟨hTakeWhole, hDropWhole⟩ :=
      takeWhile_dropWhile_append hWhole hPart (fraction ++ d :: after)
    rw [Lexeme.readNumeral?, List.append_assoc, List.cons_append, hTakeWhole, hDropWhole]
    simp only [hTake, hDrop]
    rcases hSome with hLeft | hRight <;> simp [*]

/-- A numeral starts with a digit or a point. -/
theorem exists_cons_of_isUnsignedNumeral {digits : List Char}
    (hNumeral : isUnsignedNumeral digits = true) :
    ∃ c rest, digits = c :: rest ∧ (c.isDigit = true ∨ c = '.') := by
  obtain ⟨whole, hWhole, ⟨rfl, hSome⟩ | ⟨fraction, rfl, -, -⟩⟩ :=
    exists_digits_of_isUnsignedNumeral hNumeral
  · obtain ⟨c, rest, rfl⟩ := List.exists_cons_of_ne_nil hSome
    exact ⟨c, rest, rfl, Or.inl (hWhole c (List.mem_cons_self ..))⟩
  · cases whole with
    | nil => exact ⟨'.', fraction, rfl, Or.inr rfl⟩
    | cons c rest =>
        exact ⟨c, rest ++ '.' :: fraction, rfl, Or.inl (hWhole c (List.mem_cons_self ..))⟩

theorem mem_numeralStarts {c : Char} (hFirst : c.isDigit = true ∨ c = '.') :
    c ∈ ['0', '1', '2', '3', '4', '5', '6', '7', '8', '9', '.'] := by
  rcases hFirst with hDigit | rfl
  · have hBounds : 48 ≤ c.toNat ∧ c.toNat ≤ 57 := Char.isDigit_iff_toNat.mp hDigit
    rw [← Char.ofNat_toNat c]
    generalize c.toNat = n at hBounds ⊢
    obtain ⟨hLow, hHigh⟩ := hBounds
    interval_cases n <;> decide
  · decide

/-- A digit or a point begins a numeral. -/
theorem next?_digit {c : Char} (hFirst : c.isDigit = true ∨ c = '.') (rest : List Char) :
    next? c rest = (Lexeme.readNumeral? (c :: rest)).map fun (numeral, rest) =>
      (some (.bare numeral), rest) := by
  have hMem := mem_numeralStarts hFirst
  fin_cases hMem <;> rfl

/-- After a dash, a digit or a point begins a negative numeral. -/
theorem readDash?_digit {c : Char} (hFirst : c.isDigit = true ∨ c = '.') (rest : List Char) :
    Lexeme.readDash? (c :: rest) = (Lexeme.readNumeral? (c :: rest)).map fun (numeral, rest) =>
      (.bare ('-' :: numeral), rest) := by
  have hMem := mem_numeralStarts hFirst
  fin_cases hMem <;> rfl

/-- A text that is read as the given pieces, whatever follows it. -/
def Reads (text : List Char) (lexemes : List Lexeme) : Prop :=
  ∃ steps ≤ text.length, ∀ left rest,
    allWithin (left + steps) (text ++ rest) = (allWithin left rest).map (lexemes ++ ·)

namespace Reads

variable {text more : List Char} {lexemes others : List Lexeme}

theorem nil : Reads [] [] :=
  ⟨0, Nat.le_refl 0, fun left rest => by simp⟩

/-- Texts in a row are read as the lexemes of one after those of the other. -/
theorem append (h : Reads text lexemes) (h' : Reads more others) :
    Reads (text ++ more) (lexemes ++ others) := by
  obtain ⟨steps, hSteps, hRead⟩ := h
  obtain ⟨further, hFurther, hMore⟩ := h'
  refine ⟨further + steps, by rw [List.length_append]; omega, fun left rest => ?_⟩
  rw [← Nat.add_assoc, List.append_assoc, hRead, hMore, Option.map_map]
  simp [Function.comp_def]

/-- The first piece of a text, and then those of what follows it. -/
theorem cons {c : Char} {word : List Char} {lexeme : Option Lexeme}
    (hNext : ∀ rest, next? c (word ++ more ++ rest) = some (lexeme, more ++ rest))
    (h : Reads more others) : Reads (c :: word ++ more) (lexeme.toList ++ others) := by
  obtain ⟨steps, hSteps, hRead⟩ := h
  refine ⟨steps + 1, by simp; omega, fun left rest => ?_⟩
  rw [← Nat.add_assoc, List.cons_append, List.cons_append, allWithin, hNext]
  simp [hRead, Function.comp_def]

/-- What a text is read as are all its lexemes. -/
theorem all_eq (h : Reads text lexemes) : Lexeme.all text = some lexemes := by
  obtain ⟨steps, hSteps, hRead⟩ := h
  obtain ⟨left, hLeft⟩ := Nat.exists_eq_add_of_le' hSteps
  have hEnd := hRead left []
  rw [List.append_nil, ← hLeft] at hEnd
  rw [Lexeme.all, hEnd]
  cases left <;> simp [allWithin]

/-- A word is read up to the first character that cannot be part of it. -/
theorem word {c d : Char} {rest tail : List Char} (hStart : isWordStart c = true)
    (hRest : ∀ other ∈ rest, isWordChar other = true) (hEnd : isWordChar d = false)
    (h : Reads (d :: tail) others) :
    Reads (c :: rest ++ d :: tail) (Lexeme.ofWord (c :: rest) :: others) := by
  have hSpace : Lexeme.isSpace c = false := by
    rw [Bool.eq_false_iff]
    intro hSpace
    simp only [Lexeme.isSpace, Bool.or_eq_true, beq_iff_eq, or_assoc] at hSpace
    rcases hSpace with rfl | rfl | rfl | rfl <;> cases hStart
  have hPiece (after : List Char) : next? c (rest ++ d :: tail ++ after)
      = some (some (Lexeme.ofWord (c :: rest)), d :: tail ++ after) := by
    obtain ⟨hTake, hDrop⟩ := takeWhile_dropWhile_append hRest hEnd (tail ++ after)
    rw [← List.cons_append, ← List.append_assoc] at hTake hDrop
    rw [next?, hSpace, hStart, hTake, hDrop]
    rfl
  exact cons hPiece h

/-- A numeral, perhaps with a sign, is read up to what cannot be part of it. -/
theorem numeral {cs tail : List Char} {d : Char} (hNumeral : isNumeral cs = true)
    (hDigit : d.isDigit = false) (hPoint : d ≠ '.') (h : Reads (d :: tail) others) :
    Reads (cs ++ d :: tail) (.bare cs :: others) := by
  have hDigits {c : Char} {rest : List Char} (hUnsigned : isUnsignedNumeral (c :: rest) = true)
      (after : List Char) : Lexeme.readNumeral? (c :: (rest ++ d :: tail ++ after))
        = some (c :: rest, d :: tail ++ after) := by
    have hRead : Lexeme.readNumeral? (c :: rest ++ d :: (tail ++ after)) = _ :=
      readNumeral?_append hUnsigned hDigit hPoint
    rwa [← List.cons_append, ← List.append_assoc] at hRead
  rw [isNumeral.eq_def] at hNumeral
  split at hNumeral
  · rename_i digits
    obtain ⟨c, rest, rfl, hFirst⟩ := exists_cons_of_isUnsignedNumeral hNumeral
    have hPiece (after : List Char) : next? '-' (c :: rest ++ d :: tail ++ after)
        = some (some (.bare ('-' :: c :: rest)), d :: tail ++ after) := by
      have hDash := readDash?_digit hFirst (rest ++ d :: tail ++ after)
      rw [hDigits hNumeral after] at hDash
      change (Lexeme.readDash? (c :: (rest ++ d :: tail ++ after))).map _ = _
      rw [hDash]
      rfl
    exact cons hPiece h
  · obtain ⟨c, rest, rfl, hFirst⟩ := exists_cons_of_isUnsignedNumeral hNumeral
    have hPiece (after : List Char) : next? c (rest ++ d :: tail ++ after)
        = some (some (.bare (c :: rest)), d :: tail ++ after) := by
      rw [next?_digit hFirst, hDigits hNumeral after]
      rfl
    exact cons hPiece h

end Reads

/-- The piece that a text is written as. Its backslashes are doubled first; then it is put between
quotes with its quotes guarded, unless it is a name or a numeral. -/
def Lexeme.ofText (cs : List Char) : Lexeme :=
  if isBare (doubled cs) then .bare (doubled cs) else .quoted (guarded 0 (doubled cs))

theorem ofText_of_bare {cs : List Char} (hBare : isBare cs = true) : Lexeme.ofText cs = .bare cs := by
  have hNone : '\\' ∉ cs := by
    intro hMem
    rw [isBare_of_mem_backslash hMem] at hBare
    cases hBare
  rw [Lexeme.ofText, isBare_doubled, if_pos hBare, doubled_eq_self hNone]

theorem ofText_of_not_bare {cs : List Char} (hBare : isBare cs = false) :
    Lexeme.ofText cs = .quoted (cs.flatMap escapeChar) := by
  rw [Lexeme.ofText, isBare_doubled, hBare, guarded_doubled]
  rfl

/-- Both steps are undone when the piece is read. -/
theorem identifier?_ofText (cs : List Char) : (Lexeme.ofText cs).identifier? = some cs := by
  cases hBare : isBare cs with
  | true => rw [ofText_of_bare hBare, Lexeme.identifier?]
  | false => rw [ofText_of_not_bare hBare, Lexeme.identifier?, unescape?_escape]

theorem isWordStart_of_isNameStart {c : Char} (hStart : isNameStart c = true) :
    isWordStart c = true := by
  rw [isWordStart, ← isNameStart, hStart, Bool.true_or]

/-- Whatever may stand in a name is read as part of a word. -/
theorem isWordChar_of_isNameChar {c : Char} (hChar : isNameChar c = true) : isWordChar c = true := by
  rw [isNameChar, Char.isAlphanum] at hChar
  rw [isWordChar, isWordStart]
  grind

/-- The value of an attribute is one piece, which ends where it was meant to. -/
theorem Reads.value {label : String} {d : Char} {tail : List Char} {others : List Lexeme}
    (hLine : IsOneLine label) (hWord : isWordChar d = false) (hPoint : d ≠ '.')
    (h : Reads (d :: tail) others) :
    Reads (writeValue label ++ d :: tail) (.ofText label.toList :: others) := by
  rw [writeValue]
  cases hBare : isBare label.toList with
  | true =>
      obtain ⟨hPlain, hKeyword⟩ := (isBare_iff hLine).mp hBare
      rw [if_pos rfl, ofText_of_bare hBare]
      rw [isBareWord, Bool.or_eq_true] at hPlain
      rcases hPlain with hName | hNumeral
      · cases hText : label.toList with
        | nil =>
            rw [hText] at hName
            cases hName
        | cons c rest =>
            rw [hText] at hName hKeyword
            obtain ⟨hFirst, hRest⟩ := (Bool.and_eq_true _ _).mp hName
            have hRead := h.word (isWordStart_of_isNameStart hFirst)
              (fun other hOther => isWordChar_of_isNameChar (List.all_eq_true.mp hRest other hOther))
              hWord
            rwa [Lexeme.ofWord, hKeyword] at hRead
      · have hDigit : d.isDigit = false := by
          rw [isWordChar, Bool.or_eq_false_iff] at hWord
          exact hWord.2
        exact h.numeral hNumeral hDigit hPoint
  | false =>
      have hPiece (after : List Char) :
          next? '"' (label.toList.flatMap escapeChar ++ ['"'] ++ d :: tail ++ after)
            = some (some (.quoted (label.toList.flatMap escapeChar)), d :: tail ++ after) := by
        have hRead := readQuoted?_escape label.toList (d :: tail ++ after)
        simp only [List.append_assoc, List.cons_append, List.nil_append] at hRead ⊢
        change (Lexeme.readQuoted? false _).map _ = _
        rw [hRead]
        rfl
      rw [ofText_of_not_bare hBare]
      exact cons hPiece h

/-- No word that the language keeps for itself has a digit. -/
theorem not_keyword_of_digit {cs : List Char} {c : Char} (hMem : c ∈ cs)
    (hDigit : c.isDigit = true) : keywords.contains (String.ofList (cs.map Char.toLower)) = false := by
  have hNone : (keywords.all fun word => word.toList.all fun d => !d.isDigit) = true := by decide
  simp only [List.all_eq_true, Bool.not_eq_true'] at hNone
  have hLower : c.toLower = c := by
    have hChar := mem_numeralStarts (Or.inl hDigit)
    fin_cases hChar <;> rfl
  rw [Bool.eq_false_iff]
  intro hKeyword
  have hFound : c.isDigit = false := by
    refine hNone _ (List.contains_iff_mem.mp hKeyword) c ?_
    rw [String.toList_ofList, ← hLower]
    exact List.mem_map_of_mem hMem
  rw [hDigit] at hFound
  cases hFound

/-- A name or a numeral with a digit in it is written as it is. -/
theorem Reads.plain {word : String} {c d : Char} {tail : List Char} {others : List Lexeme}
    (hPlain : isBareWord word.toList = true) (hMem : c ∈ word.toList) (hDigit : c.isDigit = true)
    (hWord : isWordChar d = false) (hPoint : d ≠ '.') (h : Reads (d :: tail) others) :
    Reads (word.toList ++ d :: tail) (.ofText word.toList :: others) := by
  have hBare : isBare word.toList = true := by
    rw [isBare, hPlain, not_keyword_of_digit hMem hDigit]
    rfl
  have hLine : IsOneLine word := not_mem_of_isBareWord hPlain (by decide)
  have hRead := h.value hLine hWord hPoint
  rwa [writeValue, if_pos hBare] at hRead

theorem isDigit_of_mem_toDigits {n : Nat} {c : Char} (hMem : c ∈ Nat.toDigits 10 n) :
    c.isDigit = true :=
  Nat.isDigit_of_mem_toDigits (by decide) (by decide) hMem

theorem exists_mem_toDigits (n : Nat) : ∃ c, c ∈ Nat.toDigits 10 n :=
  List.exists_mem_of_ne_nil _ Nat.toDigits_ne_nil

theorem isUnsignedNumeral_toDigits (n : Nat) : isUnsignedNumeral (Nat.toDigits 10 n) = true := by
  have hDrop : (Nat.toDigits 10 n).dropWhile Char.isDigit = [] :=
    List.dropWhile_eq_nil_iff.mpr fun _ hMem => isDigit_of_mem_toDigits hMem
  rw [isUnsignedNumeral, hDrop]
  simp [Nat.toDigits_ne_nil]

theorem isNumeral_toDigits (n : Nat) : isNumeral (Nat.toDigits 10 n) = true := by
  have hUnsigned := isUnsignedNumeral_toDigits n
  rw [isNumeral.eq_def]
  split
  · rename_i digits hDash
    rw [hDash] at hUnsigned
    cases hUnsigned
  · exact hUnsigned

/-- An integer is read as a lexeme up to the first character that can be in no numeral. -/
theorem Reads.integer {d : Char} {tail : List Char} {others : List Lexeme} (n : Int)
    (hWord : isWordChar d = false) (hPoint : d ≠ '.') (h : Reads (d :: tail) others) :
    Reads ((toString n).toList ++ d :: tail) (.ofText (toString n).toList :: others) := by
  have hPlain : isBareWord (toString n).toList = true ∧ ∃ c ∈ (toString n).toList, c.isDigit = true := by
    rw [isBareWord, Int.toString_eq_repr, Int.repr_eq_if]
    split
    · obtain ⟨c, hMem⟩ := exists_mem_toDigits n.toNat
      rw [Nat.toList_repr, isNumeral_toDigits, Bool.or_true]
      exact ⟨rfl, c, hMem, isDigit_of_mem_toDigits hMem⟩
    · obtain ⟨c, hMem⟩ := exists_mem_toDigits (-n).toNat
      have hSign : ("-" ++ (-n).toNat.repr).toList = '-' :: Nat.toDigits 10 (-n).toNat := by
        rw [String.toList_append, Nat.toList_repr]
        rfl
      rw [hSign, isNumeral, isUnsignedNumeral_toDigits, Bool.or_true]
      exact ⟨rfl, c, List.mem_cons_of_mem _ hMem, isDigit_of_mem_toDigits hMem⟩
  obtain ⟨hBare, c, hMem, hDigit⟩ := hPlain
  exact h.plain hBare hMem hDigit hWord hPoint

theorem isName_append {name more : List Char} (hName : isName name = true)
    (hMore : more.all isNameChar = true) : isName (name ++ more) = true := by
  cases name with
  | nil => cases hName
  | cons c rest =>
      rw [isName] at hName
      rw [List.cons_append, isName, List.all_append, hMore, Bool.and_true, hName]

/-- The name of a node is read as a lexeme up to the first character that can be in no word. -/
theorem Reads.ofNode {d : Char} {tail : List Char} {others : List Lexeme} (number : Nat)
    (hWord : isWordChar d = false) (hPoint : d ≠ '.') (h : Reads (d :: tail) others) :
    Reads ((nodeName number).toList ++ d :: tail)
      (.ofText (nodeName number).toList :: others) := by
  obtain ⟨c, hMem⟩ := exists_mem_toDigits number
  have hDigits : (Nat.toDigits 10 number).all isNameChar = true := by
    refine List.all_eq_true.mpr fun c hMem => ?_
    simp [isNameChar, Char.isAlphanum, isDigit_of_mem_toDigits hMem]
  have hName : isName ("node".toList ++ Nat.toDigits 10 number) = true :=
    isName_append (by decide) hDigits
  have hPlain : isBareWord (nodeName number).toList = true := by
    rw [toList_nodeName, isBareWord, hName]
    rfl
  have hDigit : c ∈ (nodeName number).toList := by
    rw [toList_nodeName]
    exact List.mem_append_right _ hMem
  exact h.plain hPlain hDigit (isDigit_of_mem_toDigits hMem) hWord hPoint

def Attribute.pieces (given : Attribute) : List Lexeme :=
  [.ofText given.1, .mark '=', .ofText given.2]

def Item.pieces : Item → List Lexeme
  | .defaults subject attributes =>
    .keyword subject :: .mark '[' :: attributes.flatMap Attribute.pieces ++ [.mark ']']
  | .node name attributes =>
    .ofText name :: .mark '[' :: attributes.flatMap Attribute.pieces ++ [.mark ']']
  | .edge source target => [.ofText source, .edge true, .ofText target]

def Shape.said : Shape → List Attribute
  | .ellipse => [("shape".toList, "ellipse".toList)]
  | .box =>
    [("fillcolor".toList, "lightgray".toList), ("shape".toList, "box".toList),
      ("style".toList, "filled".toList)]

/-- What a step in drawing says: of a node its label and what comes with its shape, and of an edge
where it starts and ends. -/
def Statement.said : Statement → Item
  | .node number label shape =>
    .node (nodeName number).toList (("label".toList, label.toList) :: shape.said)
  | .edge source target => .edge (nodeName source).toList (nodeName target).toList

/-- What the lines before the statements say. -/
def headingSaid (resolution : Int) : List Item :=
  [.defaults "graph".toList [("bgcolor".toList, "white".toList),
      ("dpi".toList, (toString resolution).toList), ("rankdir".toList, "TB".toList)],
    .defaults "node".toList [("fontname".toList, "Helvetica".toList),
      ("fontsize".toList, "11".toList)]]

section Writing

theorem toString_self (s : String) : toString s = s := rfl

theorem write_node (number : Nat) (label : String) (shape : Shape) :
    Statement.write (.node number label shape)
      = '\t' :: ((nodeName number).toList ++ (" [label=".toList
        ++ (writeValue label ++ ' ' :: (shape.attributes.toList ++ "]\n".toList)))) := by
  simp [Statement.write, toString_self]

theorem write_edge (source target : Nat) :
    Statement.write (.edge source target)
      = '\t' :: ((nodeName source).toList ++ (" -> ".toList
        ++ ((nodeName target).toList ++ ['\n']))) := by
  simp [Statement.write, toString_self]

theorem toList_heading (resolution : Int) : (heading resolution).toList
    = "// Parse Tree\ndigraph \x7b\n".toList ++ ("\tgraph [bgcolor=white dpi=".toList
      ++ ((toString resolution).toList ++ (" rankdir=TB]\n".toList
        ++ "\tnode [fontname=Helvetica fontsize=11]\n".toList))) := by
  unfold heading
  simp only [String.toList_append, toString_self, List.append_assoc]

end Writing

theorem reads_tab {more : List Char} {others : List Lexeme} (h : Reads more others) :
    Reads ('\t' :: more) others := by
  have hPass (after : List Char) : next? '\t' ([] ++ more ++ after) = some (none, more ++ after) :=
    rfl
  exact Reads.cons hPass h

/-- The line of a node is read as what it says, if the label has no line break. -/
theorem reads_node {label : String} (number : Nat) (shape : Shape) (hLine : IsOneLine label) :
    Reads (Statement.node number label shape).write (Statement.node number label shape).said.pieces := by
  have hShape : Reads (' ' :: (shape.attributes.toList ++ "]\n".toList))
      (shape.said.flatMap Attribute.pieces ++ [.mark ']']) := by
    cases shape with
    | ellipse =>
        refine ⟨6, by decide, fun left rest => ?_⟩
        simp +decide [allWithin, next?, Shape.attributes, Function.comp_def]
        rfl
    | box =>
        refine ⟨14, by decide, fun left rest => ?_⟩
        simp +decide [allWithin, next?, Shape.attributes, Function.comp_def]
        rfl
  have hLabel := hShape.value hLine (by decide) (by decide)
  have hKey : Reads " [label=".toList [.mark '[', .ofText "label".toList, .mark '='] := by
    refine ⟨4, by decide, fun left rest => ?_⟩
    simp +decide [allWithin, next?, Function.comp_def]
    rfl
  have hName := (hKey.append hLabel).ofNode number (by decide) (by decide)
  rw [write_node]
  exact reads_tab hName

/-- The line of an edge is read as what it says. -/
theorem reads_edge (source target : Nat) :
    Reads (Statement.edge source target).write (Statement.edge source target).said.pieces := by
  have hEnd : Reads ['\n'] [] := ⟨1, by decide, fun left rest => by simp +decide [allWithin, next?]⟩
  have hTarget := hEnd.ofNode target (by decide) (by decide)
  have hArrow : Reads " -> ".toList [.edge true] := by
    refine ⟨3, by decide, fun left rest => ?_⟩
    simp +decide [allWithin, next?, Lexeme.readDash?, Function.comp_def]
  have hSource := (hArrow.append hTarget).ofNode source (by decide) (by decide)
  rw [write_edge]
  exact reads_tab hSource

/-- The lines before the first statement are read as what they say, the remark in them as nothing.
-/
theorem reads_heading (resolution : Int) : Reads (heading resolution).toList
    (.keyword "digraph".toList :: .mark '\x7b' :: (headingSaid resolution).flatMap Item.pieces) := by
  have hFirst : Reads "// Parse Tree\ndigraph \x7b\n".toList
      [.keyword "digraph".toList, .mark '\x7b'] := by
    refine ⟨6, by decide, fun left rest => ?_⟩
    simp +decide [allWithin, next?, Lexeme.afterSlash?, Function.comp_def]
    rfl
  have hGraph : Reads "\tgraph [bgcolor=white dpi=".toList
      [.keyword "graph".toList, .mark '[', .ofText "bgcolor".toList, .mark '=',
        .ofText "white".toList, .ofText "dpi".toList, .mark '='] := by
    refine ⟨10, by decide, fun left rest => ?_⟩
    simp +decide [allWithin, next?, Function.comp_def]
    rfl
  have hRest : Reads " rankdir=TB]\n".toList
      [.ofText "rankdir".toList, .mark '=', .ofText "TB".toList, .mark ']'] := by
    refine ⟨6, by decide, fun left rest => ?_⟩
    simp +decide [allWithin, next?, Function.comp_def]
    rfl
  have hNode : Reads "\tnode [fontname=Helvetica fontsize=11]\n".toList
      [.keyword "node".toList, .mark '[', .ofText "fontname".toList, .mark '=',
        .ofText "Helvetica".toList, .ofText "fontsize".toList, .mark '=', .ofText "11".toList,
        .mark ']'] := by
    refine ⟨13, by decide, fun left rest => ?_⟩
    simp +decide [allWithin, next?, Lexeme.readNumeral?, Function.comp_def]
    rfl
  have hNumber := (hRest.append hNode).integer resolution (by decide) (by decide)
  rw [toList_heading]
  exact hFirst.append (hGraph.append hNumber)

def Statement.IsOneLine : Statement → Prop
  | .node _ label _ => Graph.IsOneLine label
  | .edge _ _ => True

theorem reads_statement {statement : Statement} (hLine : statement.IsOneLine) :
    Reads statement.write statement.said.pieces := by
  cases statement with
  | node number label shape => exact reads_node number shape hLine
  | edge source target => exact reads_edge source target

/-- Statements without line breaks are read as what they say. -/
theorem reads_statements {statements : List Statement}
    (hLine : ∀ statement ∈ statements, statement.IsOneLine) :
    Reads (statements.flatMap Statement.write)
      (statements.flatMap fun statement => statement.said.pieces) := by
  induction statements with
  | nil => exact Reads.nil
  | cons statement rest ih =>
      have hFirst := reads_statement (hLine statement (List.mem_cons_self ..))
      have hRest := ih fun other hOther => hLine other (List.mem_cons_of_mem _ hOther)
      exact hFirst.append hRest

/-- What is no identifier is the lexeme of no text. -/
theorem ofText_ne {cs : List Char} {lexeme : Lexeme} (hNone : lexeme.identifier? = none) :
    Lexeme.ofText cs ≠ lexeme := by
  intro hEq
  have hSome := identifier?_ofText cs
  rw [hEq, hNone] at hSome
  cases hSome

theorem about_ofText (name : List Char) (given : List Attribute) :
    Item.about (.ofText name) given = some (.node name given) := by
  unfold Item.about
  split
  · rename_i word hKeyword
    exact absurd hKeyword (ofText_ne rfl)
  · rw [identifier?_ofText]
    rfl

/-- Attributes in brackets are read for the item before them. -/
theorem readItems?_attributes (subject : Lexeme) (given before : List Attribute)
    (rest : List Lexeme) :
    readItems? (some (subject, before)) (given.flatMap Attribute.pieces ++ .mark ']' :: rest)
      = readItems? (some (subject, given.reverse ++ before)) (.mark ']' :: rest) := by
  induction given generalizing before with
  | nil => rfl
  | cons first others ih =>
      have hKey : Lexeme.ofText first.1 = .mark ']' → False := ofText_ne rfl
      simp [Attribute.pieces, readItems?, identifier?_ofText, ih]

/-- Statements are told apart, and each is the one that was written. -/
theorem readItems?_pieces (items : List Item) :
    readItems? none (items.flatMap Item.pieces ++ [.mark '\x7d']) = some items := by
  induction items with
  | nil => simp [readItems?]
  | cons item rest ih =>
      rw [List.flatMap_cons, List.append_assoc]
      generalize rest.flatMap Item.pieces ++ [.mark '\x7d'] = more at ih ⊢
      cases item with
      | defaults subject given =>
          simp [Item.pieces, readItems?, readItems?_attributes, Item.about, ih]
      | node name given =>
          simp [Item.pieces, readItems?, readItems?_attributes, about_ofText, ih]
      | edge source target =>
          simp [Item.pieces, readItems?, identifier?_ofText, ih]

mutual

theorem labels_ofTree : ∀ tree : Tree,
    (Sketch.preorders (Sketch.ofTree tree)).map Prod.fst = tree.wordings
  | .node label children => by
      have hBelow := labels_ofTrees children
      simp [Sketch.ofTree, Sketch.preorders, Sketch.preorder, Tree.wordings, hBelow]
  | .leaf token => by
      simp [Sketch.ofTree, Sketch.preorders, Sketch.preorder, Tree.wordings, caption_eq_wording]
  | .absent => rfl

theorem labels_ofTrees : ∀ trees : List Tree,
    (Sketch.preorders (Sketch.ofTrees trees)).map Prod.fst = Tree.wordingsOf trees
  | [] => rfl
  | tree :: trees => by
      have hTree := labels_ofTree tree
      have hRest := labels_ofTrees trees
      rw [Sketch.ofTrees, preorders_append, List.map_append, hTree, hRest, Tree.wordingsOf]

end

mutual

/-- With names of one line, everything that is to be read of a tree is one line. -/
theorem isOneLine_wordings : ∀ tree : Tree, (∀ name ∈ tree.names, IsOneLine name) →
    ∀ wording ∈ tree.wordings, IsOneLine wording
  | .node label children => by
      intro hNames wording hWording
      rcases List.mem_cons.mp hWording with rfl | hBelow
      · exact hNames _ (List.mem_cons_self ..)
      · exact isOneLine_wordingsOf children
          (fun name hName => hNames name (List.mem_cons_of_mem _ hName)) wording hBelow
  | .leaf token => by
      intro hNames wording hWording
      obtain rfl := List.mem_singleton.mp hWording
      exact isOneLine_wording (hNames _ (List.mem_singleton.mpr rfl))
  | .absent => fun _ wording hWording => absurd hWording List.not_mem_nil

/-- Where no name in trees has a line break, no wording has. -/
theorem isOneLine_wordingsOf : ∀ trees : List Tree,
    (∀ name ∈ Tree.namesOf trees, IsOneLine name) →
    ∀ wording ∈ Tree.wordingsOf trees, IsOneLine wording
  | [] => fun _ wording hWording => absurd hWording List.not_mem_nil
  | tree :: trees => by
      intro hNames wording hWording
      rcases List.mem_append.mp hWording with hTree | hRest
      · exact isOneLine_wordings tree
          (fun name hName => hNames name (List.mem_append_left _ hName)) wording hTree
      · exact isOneLine_wordingsOf trees
          (fun name hName => hNames name (List.mem_append_right _ hName)) wording hRest

end

/-- The text of a graph tells a tree and nothing else. Its pieces are those of the statements, with
one for each label, which is not markup and says what is to be read when its escapes are undone; and
read by the grammar it has the statements of the graph, with their attributes and no others. -/
structure Tells (tree : Tree) (graph : Graph) : Prop where
  labels : (nodes graph.statements).map (fun node => node.2.1) = tree.wordings
  pieces : Lexeme.all graph.text.toList
    = some (.keyword "digraph".toList :: .mark '\x7b'
        :: (headingSaid graph.resolution ++ graph.statements.map Statement.said).flatMap Item.pieces
        ++ [.mark '\x7d'])
  undone : ∀ label ∈ tree.wordings,
    (Lexeme.ofText label.toList).identifier? = some label.toList
      ∧ ∀ body, Lexeme.ofText label.toList ≠ .markup body
  items : read? graph.text.toList
    = some (headingSaid graph.resolution ++ graph.statements.map Statement.said)

/-- Where no name in a tree has a line break, no statement for it has. -/
theorem isOneLine_of_mem_drawFrom {tree : Tree} (hNames : ∀ name ∈ tree.names, IsOneLine name)
    {statement : Statement} (hMem : statement ∈ drawFrom 0 tree) : statement.IsOneLine := by
  cases statement with
  | edge source target => trivial
  | node number label shape =>
      refine isOneLine_wordings tree hNames label ?_
      rw [← labels_ofTree, ← shown_drawFrom 0, List.map_map]
      have hNode : (number, label, shape) ∈ nodes (drawFrom 0 tree) :=
        List.mem_filterMap.mpr ⟨_, hMem, rfl⟩
      exact List.mem_map.mpr ⟨_, hNode, rfl⟩

/-- The text of the statements for a tree tells the tree. -/
theorem tells_drawFrom {tree : Tree} (hNames : ∀ name ∈ tree.names, IsOneLine name)
    (resolution : Int) : Tells tree ⟨resolution, drawFrom 0 tree⟩ := by
  have hStatements := reads_statements fun statement => isOneLine_of_mem_drawFrom hNames
  have hEnd : Reads ['\x7d', '\n'] [.mark '\x7d'] := by
    refine ⟨2, by decide, fun left rest => ?_⟩
    simp +decide [allWithin, next?]
  have hPieces := ((reads_heading resolution).append (hStatements.append hEnd)).all_eq
  have hText : (Graph.text ⟨resolution, drawFrom 0 tree⟩).toList = (heading resolution).toList
      ++ ((drawFrom 0 tree).flatMap Statement.write ++ ['\x7d', '\n']) := by
    rw [text, String.toList_ofList, write, List.append_assoc]
  have hAll : Lexeme.all (Graph.text ⟨resolution, drawFrom 0 tree⟩).toList
      = some (.keyword "digraph".toList :: .mark '\x7b'
        :: (headingSaid resolution ++ (drawFrom 0 tree).map Statement.said).flatMap Item.pieces
        ++ [.mark '\x7d']) := by
    rw [hText, hPieces, List.flatMap_append, List.flatMap_map]
    simp
  constructor
  · rw [← labels_ofTree, ← shown_drawFrom 0, List.map_map]
    rfl
  · exact hAll
  · intro label hLabel
    exact ⟨identifier?_ofText label.toList, fun body => ofText_ne rfl⟩
  · rw [read?, hAll]
    simp only [List.cons_append, if_true]
    exact readItems?_pieces _

/-- The names of the grammar are of one line; and with such names, every tree is told by the text of
its graph, whatever the texts of its tokens are. -/
theorem text_tells_tree :
    (∀ start, ∀ name ∈ Grammar.Python.names start, IsOneLine name)
      ∧ ∀ (tree : Tree) (scale : Number.Quantity) (resolution : Int), tree ≠ .absent →
        (∀ name ∈ tree.names, IsOneLine name) →
        scale.roundedMultiple baseResolution = .ok resolution →
        ∃ graph, Graph.ofTree tree scale = .ok graph ∧ graph.resolution = resolution
          ∧ Tells tree graph := by
  refine ⟨fun start name hName => Grammar.Python.isOneLine_of_mem_names hName, ?_⟩
  intro tree scale resolution hTree hNames hScale
  refine ⟨⟨resolution, drawFrom 0 tree⟩, ?_, rfl, tells_drawFrom hNames resolution⟩
  rw [Graph.ofTree, hScale]
  cases tree with
  | node label children => rfl
  | leaf token => rfl
  | absent => exact absurd rfl hTree

/-- A tree of tokens that look like parts of the language that graphs are written in. -/
def disguisedTree : Tree :=
  .node "file_input"
    [.leaf ⟨"NAME", "node", .first, .first⟩, .leaf ⟨"STRING", "\"] x [y=\\\"\\", .first, .first⟩,
      .absent, .leaf ⟨"STRING", "<b> \n </b>", .first, .first⟩,
      .node "number" [.leaf ⟨"NUMBER", "-1.", .first, .first⟩], .leaf ⟨"_NEWLINE", "\n", .first, .first⟩]

theorem text_tells_disguised_tree : ∃ graph, Graph.ofTree disguisedTree (.integer 1) = .ok graph
    ∧ graph.resolution = 96 ∧ Tells disguisedTree graph :=
  text_tells_tree.2 disguisedTree (.integer 1) 96 nofun (by decide) rfl

end Graph

end SyntaxSurvey
