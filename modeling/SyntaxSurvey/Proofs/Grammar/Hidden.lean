import SyntaxSurvey.Grammar.Python
import SyntaxSurvey.Parser.Layout
import SyntaxSurvey.Proofs.Grammar.Table

/-! Layout in the grammar. The terminals that layout puts in have no text of their own, and every
production of the language that mentions one leaves nothing of it in the tree. -/

namespace SyntaxSurvey.Grammar

/-- A terminal that only layout puts in. -/
def IsLayout (kind : String) : Prop :=
  kind = Parser.indentKind ∨ kind = Parser.dedentKind

/-- A production that leaves nothing of layout in the tree. -/
def Production.HidesLayout (production : Production) : Prop :=
  ∀ kind, IsLayout kind → .symbol (.terminal kind) true ∉ production.parts

/-- Whether a line has a word that is the name of a terminal of layout and no more. -/
def showsLayout (line : List Char) : Bool :=
  (line.splitOnP (· == ' ')).any fun word =>
    word == ['_', 'I', 'N', 'D', 'E', 'N', 'T'] || word == ['_', 'D', 'E', 'D', 'E', 'N', 'T']

def LayoutFree (line : String) : Prop :=
  showsLayout line.toList = false

theorem layoutFree_ofList {line : List Char} (h : showsLayout line = false) :
    LayoutFree (String.ofList line) := by
  rwa [LayoutFree, String.toList_ofList]

/-- A word that is read as a terminal to be kept is the terminal's own name. -/
theorem Part.eq_of_ofWord {word kind : String} (h : ofWord word = .symbol (.terminal kind) true) :
    word = kind := by
  rw [ofWord] at h
  split at h
  · cases h
  · split at h
    · simp at h
    · simp only [symbol.injEq, and_true] at h
      rw [Symbol.ofName] at h
      split at h
      · cases h
      · exact Symbol.terminal.inj h

/-- A production that was read from a line hides layout if no word of the line shows it. -/
theorem Production.hidesLayout_of_layoutFree {production : Production} {line : String}
    (hParts : production.parts = readParts line) (hLine : LayoutFree line) : production.HidesLayout := by
  intro kind hKind hMem
  rw [hParts, readParts, List.mem_map] at hMem
  obtain ⟨word, hWord, hPart⟩ := hMem
  have hName : word = kind.toList := by
    rw [← Part.eq_of_ofWord hPart, String.toList_ofList]
  have hNone := List.any_eq_false.mp hLine word (List.mem_filter.mp hWord).1
  rcases hKind with rfl | rfl
  · exact hNone (by rw [hName]; decide)
  · exact hNone (by rw [hName]; decide)

/-- Productions all of which leave nothing of layout in the tree. -/
def HideLayout (productions : List Production) : Prop :=
  ∀ production ∈ productions, production.HidesLayout

theorem hideLayout_nil : HideLayout [] :=
  nofun

theorem hideLayout_append (before after : List Production) :
    HideLayout (before ++ after) ↔ HideLayout before ∧ HideLayout after :=
  List.forall_mem_append

/-- The productions of a family are written as lines. -/
theorem hideLayout_map {lines : List String} {make : String → Production}
    (hMake : ∀ line, (make line).parts = Production.readParts line)
    (hLines : ∀ line ∈ lines, LayoutFree line) : HideLayout (lines.map make) := by
  intro production hMem
  obtain ⟨line, hLine, rfl⟩ := List.mem_map.mp hMem
  exact Production.hidesLayout_of_layoutFree (hMake line) (hLines line hLine)

namespace Python

/-- No production of the grammar shows layout in a tree. Each line of each family is decided on its
own, as the list of its characters. -/
theorem hideLayout_productions : HideLayout productions := by
  simp only [productions, definitions, simpleStatements, compoundStatements, casePatterns,
    operators, atoms, arguments, repetitions, List.flatten_cons, List.flatten_nil,
    hideLayout_append, hideLayout_nil, and_true]
  repeat' apply And.intro
  all_goals
    refine hideLayout_map (fun line => rfl) ?_
    simp only [List.forall_mem_cons, List.not_mem_nil, false_implies, implies_true, and_true]
    repeat' apply And.intro
    all_goals
      apply layoutFree_ofList
      decide +kernel

theorem hideLayout_start (start : Start) : HideLayout start.productions := by
  cases start <;>
    simp only [Start.productions, List.flatten_cons, List.flatten_nil, hideLayout_append,
      hideLayout_nil, and_true]
  repeat' apply And.intro
  all_goals
    refine hideLayout_map (fun line => rfl) ?_
    simp only [List.forall_mem_cons, List.not_mem_nil, false_implies, implies_true, and_true]
    repeat' apply And.intro
    all_goals
      apply layoutFree_ofList
      decide +kernel

theorem hidesLayout_root (start : String) : (Rules.root start).HidesLayout := by
  intro kind _
  simp [Rules.root]

/-- Whatever production the table completes leaves nothing of layout in the tree. -/
theorem hidesLayout_of_reduce {start : Start} {state : Nat} {kind : String}
    {production : Production}
    (h : (table start).action? state kind = some (.reduce production)) :
    production.HidesLayout := by
  have hAll : HideLayout (language start).productions :=
    (hideLayout_append _ _).mpr ⟨hideLayout_start start, hideLayout_productions⟩
  obtain ⟨n, hFound, -⟩ := Table.has_of_reduce h
  have hMem : production ∈ Rules.root (language start).start :: (language start).productions := by
    rw [← List.mem_toArray]
    exact Array.mem_of_getElem? hFound
  rcases List.mem_cons.mp hMem with rfl | hListed
  · exact hidesLayout_root _
  · exact hAll production hListed

end Python

end SyntaxSurvey.Grammar
