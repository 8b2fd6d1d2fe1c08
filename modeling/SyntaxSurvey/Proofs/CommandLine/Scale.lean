import SyntaxSurvey.Proofs.CommandLine.Arguments
import SyntaxSurvey.Proofs.Survey.Scale

/-! Scales that are asked for. A scale is accepted by its sign alone, and so are scales at which no
tree can be drawn. -/

namespace SyntaxSurvey.CommandLine

open Number (Binary64 Quantity)

namespace Word

variable {text : String} {texts : List String} {word : Word} {words : List Word}

/-- No reading of a word as a flag makes it the separator. -/
theorem ne_separator_of_readings (h : word ∈ readings text) : word ≠ .separator := by
  rw [readings] at h
  rintro rfl
  split at h
  · simp at h
  · dsimp only at h
    split at h <;> simp at h

theorem ne_separator_of_ofString (h : ofString text = .ok word) : word ≠ .separator := by
  rintro rfl
  have hReadings : Word.separator ∉ readings text := fun hMem => ne_separator_of_readings hMem rfl
  rw [ofString] at h
  split at h
  · cases h
  split at h
  · cases h
  split at h
  · cases h
  dsimp only at h
  split at h
  · cases h
  · generalize readings text = all at h hReadings
    match all with
    | [] =>
        rw [ofReadings] at h
        split at h <;> cases h
    | [one] =>
        obtain rfl := Except.ok.inj h
        exact hReadings (List.mem_singleton_self _)
    | first :: second :: others => cases h

/-- Without a separator among them, texts become words and keep the words after them as they are. -/
theorem ofStrings_append (hTexts : separatorText ∉ texts) (hWords : ofStrings texts = .ok words)
    (more : List String) :
    ofStrings (texts ++ more) = (ofStrings more).map (words ++ ·) ∧ .separator ∉ words := by
  induction texts generalizing words with
  | nil =>
      obtain rfl := Except.ok.inj hWords
      refine ⟨?_, List.not_mem_nil⟩
      rw [List.nil_append]
      cases ofStrings more <;> rfl
  | cons first rest ih =>
      have hFirst : first ≠ separatorText := (List.ne_of_not_mem_cons hTexts).symm
      rw [ofStrings, if_neg hFirst] at hWords
      rw [List.cons_append, ofStrings, if_neg hFirst]
      cases hStart : ofString first with
      | error complaint => simp [hStart] at hWords
      | ok start =>
          cases hOthers : ofStrings rest with
          | error complaint => simp [hStart, hOthers, Except.map] at hWords
          | ok others =>
              simp only [hStart, hOthers, Except.map, Except.ok.injEq] at hWords
              subst hWords
              obtain ⟨hAll, hNone⟩ := ih (List.not_mem_of_not_mem_cons hTexts) hOthers
              refine ⟨?_, ?_⟩
              · dsimp only
                rw [hAll]
                cases ofStrings more <;> rfl
              · exact List.not_mem_cons_of_ne_of_not_mem (ne_separator_of_ofString hStart).symm
                  hNone

/-- The flag for the scale with a value attached to it; no spelling of a flag has an equals sign. -/
theorem ofString_scale (text : String) :
    ofString ("--scale=" ++ text) = .ok (.option .scale "--scale" (some text)) := by
  have hChars : ("--scale=" ++ text).toList = "--scale".toList ++ '=' :: text.toList := by
    rw [String.toList_append]
    rfl
  have hDash : ("--scale=" ++ text).startsWith "-" = true := by
    rw [String.startsWith_string_iff, hChars]
    exact ⟨_, rfl⟩
  have hSplit : splitValue ("--scale=" ++ text) = ("--scale", some text) := by
    have hStart : ∀ c ∈ "--scale".toList, (c != '=') = true := by simp
    rw [splitValue, hChars, List.dropWhile_append_of_pos hStart,
      List.takeWhile_append_of_pos hStart]
    simp
  have hEquals : '=' ∈ ("--scale=" ++ text).toList := by
    rw [hChars]
    exact List.mem_append_right _ (List.mem_cons_self ..)
  have hSpelling : Flag.ofSpelling? ("--scale=" ++ text) = none := by
    have hNone : ∀ entry ∈ Flag.listed, '=' ∉ entry.1.toList := by decide
    rw [Flag.ofSpelling?, List.lookup_eq_none_iff]
    intro entry hMem
    rw [bne_iff_ne]
    intro hSame
    exact hNone entry hMem (hSame ▸ hEquals)
  have hAlone : "--scale=" ++ text ≠ "-" := by
    intro hSame
    rw [hSame] at hEquals
    exact absurd hEquals (by decide)
  rw [ofString, hDash, hSpelling, if_neg (by decide), if_neg hAlone, hSplit]
  rfl

end Word

namespace Progress

/-- Closing the mode changes whose turn it is and nothing else. -/
theorem closeMode_cases (p : Progress) : ∃ turn, p.closeMode = { p with turn := turn } := by
  rw [closeMode]
  split
  · exact ⟨.surplus, rfl⟩
  · exact ⟨p.turn, rfl⟩

/-- Words that are read together, and where that leads. A plain word is read alone as long as no
separator follows it. -/
inductive Reads (p : Progress) : List Word → Progress → Prop where
  | unknown (text : String) : Reads p [.unknown text] (p.closeMode.keep text)
  | attached {flag : Flag} {spelling value : String} {q : Progress}
      (attach : p.closeMode.attach flag spelling value = .ok q) :
      Reads p [.option flag spelling (some value)] q
  | apart {flag : Flag} {value : String} {q : Progress} (spelling : String)
      (takes : flag.takesValue = true)
      (assign : p.closeMode.withOptions (p.options.assign flag value) = .ok q) :
      Reads p [.option flag spelling none, .plain value] q
  | switched {flag : Flag} {q : Progress} (spelling : String) (takes : flag.takesValue = false)
      (switch : p.closeMode.withOptions (p.options.switch flag) = .ok q) :
      Reads p [.option flag spelling none] q
  | plain {text : String} {q : Progress} (take : p.take text = .ok q) : Reads p [.plain text] q

/-- Reading goes on behind words that are read together. -/
theorem Reads.readAll {p q : Progress} {words : List Word} (h : p.Reads words q)
    {more : List Word} (hMore : more.head? ≠ some .separator) :
    p.readAll (words ++ more) = q.readAll more := by
  cases h with
  | unknown text => rw [List.singleton_append, Progress.readAll]
  | attached attach =>
      rw [List.singleton_append, Progress.readAll, attach]
  | apart spelling takes assign =>
      rw [List.cons_append, List.singleton_append, Progress.readAll, if_pos takes, assign]
  | switched spelling takes switch =>
      rw [List.singleton_append, Progress.readAll.eq_def]
      simp only [takes, Bool.false_eq_true, if_false, switch]
  | plain take =>
      have hNone : ∀ others, more = .separator :: others → False := by
        rintro others rfl
        exact hMore rfl
      rw [List.singleton_append, Progress.readAll.eq_7 _ _ _ hNone, take]

/-- A flag to which no value is attached is read together with the word after it, or alone. -/
theorem exists_reads_flag {p r : Progress} {flag : Flag} {spelling : String} {others : List Word}
    (hRead : p.readAll (.option flag spelling none :: others) = .ok r) :
    ∃ words rest q, .option flag spelling none :: others = words ++ rest ∧ words ≠ []
      ∧ p.Reads words q ∧ q.readAll rest = .ok r := by
  cases hTakes : flag.takesValue with
  | true =>
      by_cases hValue : ∃ value rest, others = .plain value :: rest
      · obtain ⟨value, rest, rfl⟩ := hValue
        rw [readAll, if_pos hTakes] at hRead
        cases hAssign : p.closeMode.withOptions (p.options.assign flag value) with
        | error stop => simp [hAssign] at hRead
        | ok q =>
            rw [hAssign] at hRead
            exact ⟨[_, _], rest, q, rfl, by simp, .apart spelling hTakes hAssign, hRead⟩
      · rw [readAll, if_pos hTakes] at hRead
        · cases hRead
        · exact fun value rest hSame => hValue ⟨value, rest, hSame⟩
  | false =>
      rw [readAll.eq_def] at hRead
      simp only [hTakes, Bool.false_eq_true, if_false] at hRead
      cases hSwitch : p.closeMode.withOptions (p.options.switch flag) with
      | error stop => simp [hSwitch] at hRead
      | ok q =>
          rw [hSwitch] at hRead
          exact ⟨[_], others, q, rfl, by simp, .switched spelling hTakes hSwitch, hRead⟩

/-- Words that were all read begin with some that are read together. -/
theorem exists_reads {p r : Progress} {first : Word} {others : List Word}
    (hWords : Word.separator ∉ first :: others) (hRead : p.readAll (first :: others) = .ok r) :
    ∃ words rest q, first :: others = words ++ rest ∧ words ≠ [] ∧ p.Reads words q
      ∧ q.readAll rest = .ok r := by
  have hOthers : Word.separator ∉ others := List.not_mem_of_not_mem_cons hWords
  match first with
  | .unknown text => exact ⟨[_], others, _, rfl, by simp, .unknown text, hRead⟩
  | .option flag spelling (some value) =>
      rw [readAll] at hRead
      cases hAttach : p.closeMode.attach flag spelling value with
      | error stop => simp [hAttach] at hRead
      | ok q =>
          rw [hAttach] at hRead
          exact ⟨[_], others, q, rfl, by simp, .attached hAttach, hRead⟩
  | .option flag spelling none => exact exists_reads_flag hRead
  | .plain text =>
      have hNone : ∀ later, others = .separator :: later → False := by
        rintro later rfl
        exact hOthers (List.mem_cons_self ..)
      rw [readAll.eq_7 _ _ _ hNone] at hRead
      cases hTake : p.take text with
      | error stop => simp [hTake] at hRead
      | ok q =>
          rw [hTake] at hRead
          exact ⟨[_], others, q, rfl, by simp, .plain hTake, hRead⟩
  | .separator => exact absurd (List.mem_cons_self ..) hWords

/-- A flag after some words is followed when all of them were read. -/
theorem readAll_append {p r : Progress} {words : List Word} (hWords : Word.separator ∉ words)
    (hRead : p.readAll words = .ok r) (flag : Flag) (spelling : String) (attached : Option String)
    (more : List Word) :
    p.readAll (words ++ .option flag spelling attached :: more)
      = r.readAll (.option flag spelling attached :: more) := by
  induction hLength : words.length using Nat.strongRecOn generalizing p words with
  | ind length ih =>
      cases words with
      | nil =>
          rw [readAll] at hRead
          obtain rfl := Except.ok.inj hRead
          rfl
      | cons first others =>
          obtain ⟨group, rest, q, hSplit, hSome, hReads, hRest⟩ := exists_reads hWords hRead
          rw [hSplit] at hWords hLength ⊢
          have hNone : Word.separator ∉ rest := fun hMem => hWords (List.mem_append_right _ hMem)
          have hHead : (rest ++ .option flag spelling attached :: more).head?
              ≠ some .separator := by
            cases rest with
            | nil => simp
            | cons next later =>
                intro hSame
                exact hNone (Option.some.inj hSame ▸ List.mem_cons_self ..)
          have hShorter : rest.length < length := by
            rw [← hLength, List.length_append]
            exact Nat.lt_add_of_pos_left (List.length_pos_iff.mpr hSome)
          rw [List.append_assoc, hReads.readAll hHead]
          exact ih _ hShorter hNone hRest rfl

/-- A scale at the end is assigned, whether it is attached to its flag or stands apart. -/
theorem readAll_scale (p : Progress) {text : String} (hText : text ≠ Word.separatorText) :
    p.readAll [.option .scale "--scale" (some text)]
        = p.closeMode.withOptions (p.options.assign .scale text)
      ∧ p.readAll [.option .scale "--scale" none, .plain text]
        = p.closeMode.withOptions (p.options.assign .scale text) := by
  have hTakes : Flag.scale.takesValue = true := rfl
  obtain ⟨turn, hClosed⟩ := p.closeMode_cases
  constructor
  · rw [readAll, Progress.attach, if_pos hTakes, if_neg hText, hClosed]
    cases withOptions _ (p.options.assign .scale text) <;> rfl
  · rw [readAll, if_pos hTakes]
    cases p.closeMode.withOptions (p.options.assign .scale text) <;> rfl

end Progress

namespace Arguments

variable {texts : List String} {a b : Arguments} {text : String}

/-- Arguments pass the check exactly if their scale was not taken away and does not compare as zero or
below. -/
theorem checked_eq_ok_iff : checked a = .ok b ↔
    a = b ∧ a.options.scale ≠ .emptied ∧ a.scale.isAtMostZero = false := by
  rw [checked]
  split
  · rename_i hEmptied
    simp [hEmptied]
  split
  · rename_i hAtMost
    simp [hAtMost]
  · rename_i hEmptied hAtMost
    simp [hEmptied, hAtMost]

/-- Texts that can be told apart as words are read word by word. -/
theorem read_of_ofStrings {words : List Word} (hWords : Word.ofStrings texts = .ok words) :
    read texts = (Progress.start.readAll words).bind ofProgress := by
  rw [read, hWords]
  dsimp only
  cases Progress.start.readAll words <;> rfl

/-- Whatever is accepted was read to its end, with nothing left over, and was checked. -/
theorem exists_progress_of_read (h : read texts = .ok a) :
    ∃ words p, Word.ofStrings texts = .ok words ∧ Progress.start.readAll words = .ok p
      ∧ p.root = some a.root ∧ p.surplus = [] ∧ p.options = a.options
      ∧ a.scale.isAtMostZero = false := by
  cases hWords : Word.ofStrings texts with
  | error complaint => simp [read, hWords] at h
  | ok words =>
      rw [read_of_ofStrings hWords] at h
      cases hProgress : Progress.start.readAll words with
      | error stop => simp [hProgress, Except.bind] at h
      | ok p =>
          simp only [hProgress, Except.bind, ofProgress] at h
          cases hRoot : p.root with
          | none => simp [hRoot] at h
          | some root =>
              simp only [hRoot] at h
              split at h
              · rename_i hSurplus
                obtain ⟨rfl, -, hScale⟩ := checked_eq_ok_iff.mp h
                exact ⟨words, p, rfl, hProgress, hRoot, List.isEmpty_iff.mp hSurplus, rfl, hScale⟩
              · cases h

def withScale (a : Arguments) (scale : Binary64) : Arguments :=
  { a with options := { a.options with scale := .value scale } }

/-- The ways to ask for a scale. What stands apart from the flag must not look like one itself. -/
inductive AsksForScale (text : String) : List String → Prop where
  | attached : AsksForScale text ["--scale=" ++ text]
  | apart (hPlain : Word.ofString text = .ok (.plain text)) : AsksForScale text ["--scale", text]

/-- A text for the scale is attached to its flag or stands as a word behind it. -/
theorem AsksForScale.ofStrings {more : List String} (h : AsksForScale text more)
    (hText : text ≠ Word.separatorText) :
    Word.ofStrings more = .ok [.option .scale "--scale" (some text)]
      ∨ Word.ofStrings more = .ok [.option .scale "--scale" none, .plain text] := by
  cases h with
  | attached =>
      have hFlag : "--scale=" ++ text ≠ Word.separatorText := by
        intro hSame
        have hThird := congrArg (fun s => s.toList[2]?) hSame
        simp only [String.toList_append] at hThird
        cases hThird
      left
      rw [Word.ofStrings, if_neg hFlag, Word.ofString_scale]
      rfl
  | apart hPlain =>
      have hFlag : Word.ofString "--scale" = .ok (.option .scale "--scale" none) := by
        decide +kernel
      right
      rw [Word.ofStrings, if_neg (by decide), hFlag]
      dsimp only
      rw [Word.ofStrings, if_neg hText, hPlain]
      rfl

/-- What becomes of a scale at the end of a command line that is accepted without it. -/
theorem read_append_scale (hTexts : Word.separatorText ∉ texts) (hRead : read texts = .ok a)
    (hText : text ≠ Word.separatorText) {more : List String} (hMore : AsksForScale text more) :
    (Binary64.read? text = none →
      read (texts ++ more) = .error (.misuse (.notANumber .scale text))) ∧
    ∀ scale, Binary64.read? text = some scale →
      read (texts ++ more) = checked (a.withScale scale) := by
  obtain ⟨words, p, hWords, hProgress, hRoot, hSurplus, hOptions, -⟩ :=
    exists_progress_of_read hRead
  obtain ⟨hAll, hNone⟩ := Word.ofStrings_append hTexts hWords more
  obtain ⟨hAttached, hApart⟩ := p.readAll_scale hText
  have hLast : read (texts ++ more) =
      (p.closeMode.withOptions (p.options.assign .scale text)).bind ofProgress := by
    rcases hMore.ofStrings hText with hWord | hWord
    · rw [hWord] at hAll
      rw [read_of_ofStrings hAll, Progress.readAll_append hNone hProgress, hAttached]
    · rw [hWord] at hAll
      rw [read_of_ofStrings hAll, Progress.readAll_append hNone hProgress, hApart]
  obtain ⟨turn, hClosed⟩ := p.closeMode_cases
  rw [hLast, Options.assign]
  constructor
  · intro hNone
    rw [hNone]
    rfl
  · intro scale hSome
    rw [hSome]
    simp only [Progress.withOptions, Except.map, Except.bind, ofProgress, hClosed, hRoot, hSurplus,
      List.isEmpty_nil, if_true, hOptions]
    rfl

/-- What an accepted scale is good for. -/
structure ScaleTold (a : Arguments) : Prop where
  /-- It is positive, or it is infinite, or it is no number at all. -/
  accepted : (∃ value, a.scale.value? = some value ∧ 0 < value) ∨ a.scale = .infinite false
    ∨ ∃ sign, a.scale = .notANumber sign
  drawn : ∀ tree, (∃ graph, Graph.ofTree tree a.plan.scale = .ok graph) ↔ Graph.Usable a.scale
  standard : a.options.scale = .nothing → Graph.Usable a.scale
  /-- Where no tree can be drawn, every source of a survey that draws fails. -/
  failed : a.options.mode = .images → ¬Graph.Usable a.scale →
    ∀ setting files summary, (Survey.run setting a.plan files).result = .ok summary →
      summary.failed = summary.total
        ∧ ∀ record ∈ summary.records, record.succeeded = false ∧ record.imagePath = none

theorem scaleTold_of_isAtMostZero (h : a.scale.isAtMostZero = false) : a.ScaleTold where
  accepted := Binary64.cases_of_isAtMostZero h
  drawn := Graph.exists_ofTree_iff h
  standard hNothing := by
    have hScale : a.scale = Image.defaultScale := by
      rw [scale, hNothing]
      rfl
    exact hScale ▸ Graph.usable_defaultScale
  failed hMode hUnusable setting files summary hRun := by
    refine Survey.failed_of_undrawable hMode (fun tree graph hGraph => ?_) hRun
    exact hUnusable ((Graph.exists_ofTree_iff h tree).mp ⟨graph, hGraph⟩)

/-- Scales are checked by their sign alone. What is accepted is usable exactly if it is a number
whose resolution is within the range of the format; without that every source of a survey that draws
is a failure. At the end of any command line that is accepted without it, a scale that cannot be
read or is not positive ends the program with the status for misuse, and every other one is
accepted. -/
theorem scale_checked_by_sign (hRead : read texts = .ok a) :
    a.ScaleTold ∧
    ∀ text more, "--" ∉ texts → text ≠ "--" → AsksForScale text more →
      let given := read (texts ++ more)
      let refused complaint :=
        given = .error (.misuse complaint) ∧ (Stop.misuse complaint).status = 2
      (Binary64.read? text = none → refused (.notANumber .scale text)) ∧
      ∀ scale, Binary64.read? text = some scale →
        let tooSmall := scale = .infinite true ∨ ∃ value, scale.value? = some value ∧ value ≤ 0
        (tooSmall → refused .scaleNotPositive) ∧ (¬tooSmall → given = .ok (a.withScale scale)) := by
  obtain ⟨_, _, -, -, -, -, -, hScale⟩ := exists_progress_of_read hRead
  refine ⟨scaleTold_of_isAtMostZero hScale, fun text more hTexts hText hMore => ?_⟩
  obtain ⟨hUnread, hChecked⟩ := read_append_scale hTexts hRead hText hMore
  refine ⟨fun hNone => ⟨hUnread hNone, rfl⟩, fun scale hSome => ?_⟩
  dsimp only
  rw [← Binary64.isAtMostZero_iff, hChecked scale hSome]
  refine ⟨fun hSmall => ⟨?_, rfl⟩, fun hEnough => ?_⟩
  · rw [checked, if_neg (by simp [withScale])]
    exact if_pos hSmall
  · exact checked_eq_ok_iff.mpr ⟨rfl, by simp [withScale], Bool.eq_false_iff.mpr hEnough⟩

/-- What is not a number is accepted as a scale, and then a source without faults fails. -/
theorem scale_checked_by_sign_of_nan :
    let files : FileSystem := ⟨.directory [("repo", .directory [("a.py", .file [])])], []⟩
    ∃ a summary, read ["repo", "images", "--scale", "nan"] = .ok a ∧ a.scale = .notANumber false
      ∧ (Survey.run Survey.mirror a.plan files).result = .ok summary
      ∧ summary.total = 1 ∧ summary.failed = 1 := by
  intro files
  have hFirst : (read ["repo", "images"]).toBool = true := by decide +kernel
  cases hRead : read ["repo", "images"] with
  | error stop => simp [hRead, Except.toBool] at hFirst
  | ok first =>
      have hNan : Binary64.read? "nan" = some (.notANumber false) := by decide +kernel
      have hAccepted : read ["repo", "images", "--scale", "nan"]
          = .ok (first.withScale (.notANumber false)) := by
        have hPlain : Word.ofString "nan" = .ok (.plain "nan") := by decide +kernel
        obtain ⟨-, hGiven⟩ := scale_checked_by_sign hRead
        obtain ⟨-, hRest⟩ := hGiven "nan" _ (by decide) (by decide) (.apart hPlain)
        exact (hRest _ hNan).2 (by simp [Binary64.value?])
      have hFacts : (read ["repo", "images", "--scale", "nan"]).toOption.map (fun a =>
          (a.options.mode, (Survey.run Survey.mirror a.plan files).result.toBool,
            (Discovery.sources files a.plan.root a.plan.suffix).toOption.map List.length))
            = some (.images, true, some 1) := by
        decide +kernel
      rw [hAccepted] at hFacts
      generalize hSame : first.withScale (.notANumber false) = a at hAccepted hFacts
      simp only [Except.toOption, Option.map_some, Option.some.injEq, Prod.mk.injEq] at hFacts
      obtain ⟨hMode, hOk, hLength⟩ := hFacts
      obtain ⟨summary, hRun⟩ := Survey.exists_ok_of_toBool hOk
      have hOne : summary.total = 1 := by
        obtain ⟨paths, hSources, rfl, -, -⟩ := Survey.run_stage hRun
        rw [Survey.total_stage (Nat.le_refl _)]
        simpa [hSources] using hLength
      have hUnusable : ¬Graph.Usable a.scale := by
        rintro ⟨value, hValue, -⟩
        subst hSame
        cases hValue
      obtain ⟨hTold, -⟩ := scale_checked_by_sign hAccepted
      have hFailed := (hTold.failed hMode hUnusable _ _ _ hRun).1
      exact ⟨a, summary, hAccepted, by rw [← hSame]; rfl, hRun, hOne, hFailed.trans hOne⟩

end Arguments

end SyntaxSurvey.CommandLine
