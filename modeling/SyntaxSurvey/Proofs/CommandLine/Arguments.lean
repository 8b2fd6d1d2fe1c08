import SyntaxSurvey.CommandLine.Arguments
import SyntaxSurvey.Proofs.Survey.Opening

/-! Reading command lines. Whatever the words are, reading them ends with arguments whose paths are in
normal form, or with help or a complaint, or stumbles over a scale that was taken away. -/

namespace SyntaxSurvey.CommandLine

variable {α β : Type}

/-- Every value that was given has a property. -/
def Given.All (given : Given α) (property : α → Prop) : Prop :=
  ∀ a, given = .value a → property a

@[simp]
theorem Given.all_nothing (property : α → Prop) : (Given.nothing : Given α).All property :=
  fun a hValue => by cases hValue

@[simp]
theorem Given.all_emptied (property : α → Prop) : (Given.emptied : Given α).All property :=
  fun a hValue => by cases hValue

@[simp]
theorem Given.all_value (property : α → Prop) (a : α) :
    (Given.value a).All property ↔ property a :=
  ⟨fun h => h a rfl, fun h b hValue => by cases hValue; exact h⟩

/-- The program is stopped by what it was asked for or by a complaint. -/
def Stop.IsOrderly (stop : Stop) : Prop :=
  stop = .help ∨ ∃ complaint, stop = .misuse complaint

/-- Something is read that has a property, or the reading is stopped in an orderly way. -/
inductive Orderly (property : α → Prop) : Except Stop α → Prop where
  | ok {a : α} (h : property a) : Orderly property (.ok a)
  | stopped {stop : Stop} (h : stop.IsOrderly) : Orderly property (.error stop)

namespace Orderly

variable {property : α → Prop} {other : β → Prop}

theorem misuse (complaint : Complaint) : Orderly property (.error (.misuse complaint)) :=
  .stopped (Or.inr ⟨complaint, rfl⟩)

/-- What keeps a property keeps results orderly. -/
theorem map {result : Except Stop α} {f : α → β} (h : Orderly property result)
    (hMap : ∀ a, property a → other (f a)) : Orderly other (result.map f) := by
  cases h with
  | ok hResult => exact .ok (hMap _ hResult)
  | stopped hStop => exact .stopped hStop

theorem value {a : α} (h : Orderly property (.ok a)) : property a := by
  cases h with
  | ok hResult => exact hResult

/-- What holds of everything that is read, and of every orderly stop. -/
@[elab_as_elim]
theorem elim {motive : Except Stop α → Prop} {result : Except Stop α}
    (h : Orderly property result) (ok : ∀ a, property a → motive (.ok a))
    (stopped : ∀ stop : Stop, stop.IsOrderly → motive (.error stop)) : motive result := by
  cases h with
  | ok hResult => exact ok _ hResult
  | stopped hStop => exact stopped _ hStop

end Orderly

namespace Options

/-- The paths that are asked for are in normal form. -/
structure Normal (o : Options) : Prop where
  directory : o.directory.All Path.Normal
  report : o.report.All Path.Normal
  logFile : o.logFile.All Path.Normal

theorem normal_standard : Options.standard.Normal :=
  ⟨by simp [standard], by simp [standard], by simp [standard]⟩

variable {o : Options}

theorem switch_orderly (h : o.Normal) (flag : Flag) : Orderly Normal (o.switch flag) := by
  cases flag with
  | help => exact .stopped (Or.inl rfl)
  | quiet => exact .ok ⟨h.directory, h.report, h.logFile⟩
  | verbose => exact .ok ⟨h.directory, h.report, h.logFile⟩
  | detailed => exact .ok ⟨h.directory, h.report, h.logFile⟩
  | suffix => exact .misuse _
  | directory => exact .misuse _
  | scale => exact .misuse _
  | report => exact .misuse _
  | logFile => exact .misuse _

/-- Switches leave normal options normal or stop in an orderly way. -/
theorem switchAll_orderly (h : o.Normal) (flags : List Flag) :
    Orderly Normal (o.switchAll flags) := by
  induction flags generalizing o with
  | nil => exact .ok h
  | cons flag flags ih =>
      rw [switchAll]
      exact (switch_orderly h flag).elim (fun _ hNext => ih hNext) fun _ hStop => .stopped hStop

theorem clear_normal (h : o.Normal) (flag : Flag) : (o.clear flag).Normal := by
  cases flag with
  | directory => exact ⟨Given.all_emptied _, h.report, h.logFile⟩
  | report => exact ⟨h.directory, Given.all_emptied _, h.logFile⟩
  | logFile => exact ⟨h.directory, h.report, Given.all_emptied _⟩
  | _ => exact ⟨h.directory, h.report, h.logFile⟩

/-- A value is assigned to a flag as it should be, or the program stops in an orderly way. -/
theorem assign_orderly (h : o.Normal) (flag : Flag) (value : String) :
    Orderly Normal (o.assign flag value) := by
  have hPath := Path.normal_ofString value
  cases flag with
  | suffix => exact .ok ⟨h.directory, h.report, h.logFile⟩
  | directory => exact .ok ⟨(Given.all_value ..).mpr hPath, h.report, h.logFile⟩
  | report => exact .ok ⟨h.directory, (Given.all_value ..).mpr hPath, h.logFile⟩
  | logFile => exact .ok ⟨h.directory, h.report, (Given.all_value ..).mpr hPath⟩
  | scale =>
      rw [assign]
      split
      · exact .ok ⟨h.directory, h.report, h.logFile⟩
      · exact .misuse _
  | help => exact .misuse _
  | quiet => exact .misuse _
  | verbose => exact .misuse _
  | detailed => exact .misuse _

theorem choose_orderly (h : o.Normal) (text : String) : Orderly Normal (o.choose text) := by
  rw [choose]
  split
  · exact .ok h
  split
  · exact .ok ⟨h.directory, h.report, h.logFile⟩
  split
  · exact .ok ⟨h.directory, h.report, h.logFile⟩
  · exact .misuse _

end Options

theorem cluster_orderly (flag : Flag) (cs : List Char) :
    Orderly (fun _ => True) (cluster flag cs) := by
  induction cs generalizing flag with
  | nil => exact .ok trivial
  | cons c cs ih =>
      rw [cluster]
      split
      · exact (ih _).map fun _ _ => trivial
      · exact .misuse _

namespace Progress

/-- The paths that were read are in normal form. -/
structure Normal (p : Progress) : Prop where
  root : ∀ root, p.root = some root → root.Normal
  options : p.options.Normal

variable {p : Progress}

theorem normal_start : start.Normal :=
  ⟨by simp [start], Options.normal_standard⟩

theorem closeMode_normal (h : p.Normal) : p.closeMode.Normal := by
  rw [closeMode]
  split
  · exact ⟨h.root, h.options⟩
  · exact h

theorem keep_normal (h : p.Normal) (text : String) : (p.keep text).Normal :=
  ⟨h.root, h.options⟩

theorem withOptions_orderly (h : p.Normal) {options : Except Stop Options}
    (hOptions : Orderly Options.Normal options) : Orderly Normal (p.withOptions options) :=
  hOptions.map fun _ hNext => ⟨h.root, hNext⟩

/-- A word in its place is taken as it should be, or the program stops in an orderly way. -/
theorem take_orderly (h : p.Normal) (text : String) : Orderly Normal (p.take text) := by
  rw [take]
  split
  · refine .ok ⟨fun root hRoot => ?_, h.options⟩
    obtain rfl : .ofString text = root := Option.some.inj hRoot
    exact Path.normal_ofString text
  · have hClosed : Progress.Normal { p with turn := .surplus } := ⟨h.root, h.options⟩
    exact withOptions_orderly hClosed (Options.choose_orderly h.options text)
  · exact .ok (keep_normal h text)

theorem attach_orderly (h : p.Normal) (flag : Flag) (spelling value : String) :
    Orderly Normal (p.attach flag spelling value) := by
  rw [attach]
  split
  · split
    · exact .ok ⟨h.root, Options.clear_normal h.options flag⟩
    · exact withOptions_orderly h (Options.assign_orderly h.options flag value)
  · split
    · exact .misuse _
    · refine (cluster_orderly flag value.toList).elim (fun flags _ => ?_) fun _ hStop => .stopped hStop
      exact withOptions_orderly h (Options.switchAll_orderly h.options flags)

/-- However many words are read, what was read is in normal form, or the reading is stopped in an
orderly way. -/
theorem readAll_orderly {p : Progress} (h : p.Normal) (words : List Word) :
    Orderly Normal (p.readAll words) := by
  have hClosed := closeMode_normal h
  match words with
  | [] =>
      rw [readAll]
      exact .ok h
  | .unknown text :: rest =>
      rw [readAll]
      exact readAll_orderly (keep_normal hClosed text) rest
  | .option flag spelling (some value) :: rest =>
      rw [readAll]
      exact (attach_orderly hClosed flag spelling value).elim
        (fun _ hNext => readAll_orderly hNext rest) fun _ hStop => .stopped hStop
  | .option flag spelling none :: rest =>
      by_cases hTakes : flag.takesValue
      · by_cases hValue : ∃ value others, rest = .plain value :: others
        · obtain ⟨value, others, rfl⟩ := hValue
          have hAssign := withOptions_orderly hClosed (Options.assign_orderly h.options flag value)
          rw [readAll, if_pos hTakes]
          exact hAssign.elim (fun _ hNext => readAll_orderly hNext others) fun _ hStop =>
            .stopped hStop
        · rw [readAll, if_pos hTakes]
          · exact .misuse _
          · exact fun value others hRest => hValue ⟨value, others, hRest⟩
      · have hSwitch := withOptions_orderly hClosed (Options.switch_orderly h.options flag)
        rw [readAll.eq_def]
        simp only [hTakes, Bool.false_eq_true, if_false]
        exact hSwitch.elim (fun _ hNext => readAll_orderly hNext rest) fun _ hStop => .stopped hStop
  | .plain text :: rest =>
      have hTake := take_orderly h text
      by_cases hSeparator : ∃ others, rest = .separator :: others
      · obtain ⟨others, rfl⟩ := hSeparator
        rw [readAll]
        refine hTake.elim (fun _ hNext => readAll_orderly ?_ others) fun _ hStop => .stopped hStop
        split
        · exact keep_normal hNext _
        · exact hNext
      · rw [readAll]
        · exact hTake.elim (fun _ hNext => readAll_orderly hNext rest) fun _ hStop => .stopped hStop
        · exact fun others hRest => hSeparator ⟨others, hRest⟩
  | .separator :: rest =>
      rw [readAll]
      refine readAll_orderly ?_ rest
      split
      · exact h
      · exact keep_normal h _
termination_by words.length

end Progress

namespace Arguments

/-- All paths of the arguments are in normal form. -/
structure Normal (a : Arguments) : Prop where
  root : a.root.Normal
  options : a.options.Normal

/-- Arguments that are normal make for a normal plan. -/
theorem Normal.plan {a : Arguments} (h : a.Normal) : a.plan.Normal where
  root := h.root
  directory directory hPlan := by
    rw [Plan.imageDirectory?] at hPlan
    split at hPlan
    · cases hPlan
    · obtain rfl := Option.some.inj hPlan
      change (Option.getD a.options.directory.value? (Image.directoryFor a.root)).Normal
      cases hGiven : a.options.directory with
      | nothing => exact Path.normal_ofString _
      | emptied => exact Path.normal_ofString _
      | value path => exact h.options.directory path hGiven

/-- What comes of reading a command line: arguments with paths in normal form, help, a complaint,
or a scale that was taken away. -/
theorem read_cases (texts : List String) :
    Orderly Normal (read texts) ∨ read texts = .error (.broken (.valueMissing .scale)) := by
  rw [read]
  cases hWords : Word.ofStrings texts with
  | error complaint => exact Or.inl (.misuse complaint)
  | ok words =>
      have hRead := Progress.readAll_orderly Progress.normal_start words
      dsimp only
      generalize Progress.start.readAll words = result at hRead ⊢
      cases hRead with
      | stopped hStop => exact Or.inl (.stopped hStop)
      | @ok p hNormal =>
          dsimp only
          rw [ofProgress]
          cases hRoot : p.root with
          | none => exact Or.inl (.misuse _)
          | some root =>
              dsimp only
              split
              · rw [checked]
                split
                · exact Or.inr rfl
                split
                · exact Or.inl (.misuse _)
                · exact Or.inl (.ok ⟨hNormal.root root hRoot, hNormal.options⟩)
              · exact Or.inl (.misuse _)

end Arguments

end SyntaxSurvey.CommandLine
