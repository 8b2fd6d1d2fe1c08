import SyntaxSurvey.Grammar.Python
import SyntaxSurvey.Parser.Layout
import SyntaxSurvey.Proofs.Graph.Label

/-! The names of the grammar: those of its rules and those of its kinds of tokens. Each is one line. -/

namespace SyntaxSurvey.Grammar

open SyntaxSurvey.Graph (IsOneLine)

/-- The names of rules and of kinds of tokens that trees of the language have. -/
def Python.names (start : Python.Start) : List String :=
  (language start).productions.map Production.label ++ (language start).terminals.map Terminal.name
    ++ [Parser.indentKind, Parser.dedentKind]

/-- The nodes of all productions have names of one line. -/
def LabelledOnOneLine (productions : List Production) : Prop :=
  ∀ production ∈ productions, IsOneLine production.label

theorem isOneLine_ofList {cs : List Char} (hNone : '\n' ∉ cs) : IsOneLine (String.ofList cs) := by
  rwa [IsOneLine, String.toList_ofList]

theorem labelledOnOneLine_nil : LabelledOnOneLine [] :=
  nofun

theorem labelledOnOneLine_append (before after : List Production) :
    LabelledOnOneLine (before ++ after) ↔ LabelledOnOneLine before ∧ LabelledOnOneLine after :=
  List.forall_mem_append

/-- The productions of a family have one label. -/
theorem labelledOnOneLine_map {label : String} {lines : List String} {make : String → Production}
    (hMake : ∀ line, (make line).label = label) (hLabel : IsOneLine label) :
    LabelledOnOneLine (lines.map make) := by
  intro production hMem
  obtain ⟨line, -, rfl⟩ := List.mem_map.mp hMem
  rwa [hMake]

namespace Python

/-- No label that a production gives has a line break. -/
theorem labelledOnOneLine_productions : LabelledOnOneLine productions := by
  simp only [productions, definitions, simpleStatements, compoundStatements, casePatterns,
    operators, atoms, arguments, repetitions, List.flatten_cons, List.flatten_nil,
    labelledOnOneLine_append, labelledOnOneLine_nil, and_true]
  repeat' apply And.intro
  all_goals
    refine labelledOnOneLine_map (fun line => rfl) ?_
    apply isOneLine_ofList
    decide

theorem labelledOnOneLine_start (start : Start) : LabelledOnOneLine start.productions := by
  cases start <;>
    simp only [Start.productions, List.flatten_cons, List.flatten_nil, labelledOnOneLine_append,
      labelledOnOneLine_nil, and_true]
  repeat' apply And.intro
  all_goals
    refine labelledOnOneLine_map (fun line => rfl) ?_
    apply isOneLine_ofList
    decide

/-- No name of a terminal has a line break. -/
theorem isOneLine_terminal {terminal : Terminal} (hMem : terminal ∈ terminals) :
    IsOneLine terminal.name := by
  have hNames : ∀ name ∈ terminals.map Terminal.name, IsOneLine name := by
    simp only [terminals, patterned, fixed, List.map_append, List.map_cons, List.map_nil,
      List.forall_mem_append, List.forall_mem_cons, List.not_mem_nil, false_implies,
      implies_true, and_true]
    repeat' apply And.intro
    all_goals
      apply isOneLine_ofList
      decide
  exact hNames _ (List.mem_map_of_mem hMem)

/-- No name that a tree or a message can show has a line break. -/
theorem isOneLine_of_mem_names {start : Start} {name : String} (hMem : name ∈ names start) :
    IsOneLine name := by
  rcases List.mem_append.mp hMem with hGrammar | hLayout
  · rcases List.mem_append.mp hGrammar with hRule | hTerminal
    · obtain ⟨production, hProduction, rfl⟩ := List.mem_map.mp hRule
      have hAll := (labelledOnOneLine_append _ _).mpr
        ⟨labelledOnOneLine_start start, labelledOnOneLine_productions⟩
      exact hAll production hProduction
    · obtain ⟨terminal, hSpelt, rfl⟩ := List.mem_map.mp hTerminal
      exact isOneLine_terminal hSpelt
  · rcases List.mem_cons.mp hLayout with rfl | hDedent
    · exact isOneLine_ofList (by decide)
    · obtain rfl := List.mem_singleton.mp hDedent
      exact isOneLine_ofList (by decide)

end Python

end SyntaxSurvey.Grammar
