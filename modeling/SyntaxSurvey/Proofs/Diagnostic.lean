import SyntaxSurvey.Collector
import SyntaxSurvey.Proofs.Text.Unbroken

/-! Diagnostics are well formed. Whatever fault is recorded, its place is not negative and its
message is one line that is not empty, as long as the names that the message shows as they are have
no line break in them. A fault is therefore one line of the log. -/

namespace SyntaxSurvey

open Text (Unbroken isBlank)

/-- A number of a place is never recorded as a negative one. -/
theorem Spot.natural_nonneg (n : Option Int) : 0 ≤ natural n := by
  unfold natural
  split
  · split <;> omega
  · exact Int.le_refl 0

namespace Fault

variable {name : String} {names expected : List String}

/-- The names that stand in the description of a fault as they are: no terminal among them has a
line break, and a kind is only shown where the words are blank. -/
def NamesOnOneLine : Fault → Prop
  | .unexpectedToken kind _ _ expected =>
    Unbroken kind.toList ∧ ∀ name ∈ expected, Unbroken name.toList
  | .other kind message _ =>
    (∀ c ∈ message.toList, isBlank c = true) → kind ≠ "" ∧ Unbroken kind.toList
  | _ => True

theorem mem_sortedNames : name ∈ sortedNames names ↔ name ∈ names := by
  rw [sortedNames, List.mem_eraseDups, List.mem_mergeSort]

/-- Names in a row are on one line if and only if each is. -/
theorem unbroken_sortedNames :
    Unbroken (", ".intercalate (sortedNames names)).toList ↔
      ∀ name ∈ names, Unbroken name.toList := by
  rw [String.toList_intercalate, Text.unbroken_intercalate (by decide), List.forall_mem_map]
  simp only [mem_sortedNames]

/-- The description of a token names it unless it is the end of the text, and then tells the names
that were expected, if there are any. -/
theorem description_unexpectedToken (kind text : String) (spot : Spot) (expected : List String) :
    description (.unexpectedToken kind text spot expected) =
      (if kind = endKind then "unexpected end of input"
        else "unexpected " ++ kind ++ " " ++ Text.quoted text) ++
      if expected = [] then ""
      else ", expected one of: " ++ ", ".intercalate (sortedNames expected) := by
  cases expected with
  | nil => rw [if_pos rfl, String.append_empty]; rfl
  | cons name names =>
      rw [if_neg (List.cons_ne_nil name names), ← String.append_assoc]
      rfl

/-- The end of the text is described without its name, which is on one line in any case. -/
theorem description_unexpectedToken_iff (kind text : String) (spot : Spot)
    (expected : List String) :
    (description (.unexpectedToken kind text spot expected) ≠ "" ∧
        Unbroken (description (.unexpectedToken kind text spot expected)).toList) ↔
      Unbroken kind.toList ∧ ∀ name ∈ expected, Unbroken name.toList := by
  rw [description_unexpectedToken, Ne, String.append_eq_empty_iff, String.toList_append,
    Text.unbroken_append]
  have hNotEmpty : (if kind = endKind then "unexpected end of input"
      else "unexpected " ++ kind ++ " " ++ Text.quoted text) ≠ "" := by
    split
    · decide
    · simp [String.append_eq_empty_iff]
  have hFound : Unbroken (if kind = endKind then "unexpected end of input"
      else "unexpected " ++ kind ++ " " ++ Text.quoted text).toList ↔ Unbroken kind.toList := by
    split
    · rename_i hEnd
      rw [hEnd]
      decide
    · have hWord : Unbroken "unexpected ".toList := by decide
      have hSpace : Unbroken " ".toList := by decide
      simp only [String.toList_append, Text.unbroken_append, hWord, hSpace, Text.unbroken_quoted,
        true_and, and_true]
  have hExpected : Unbroken (if expected = [] then ""
      else ", expected one of: " ++ ", ".intercalate (sortedNames expected)).toList ↔
      ∀ name ∈ expected, Unbroken name.toList := by
    split
    · rename_i hNone
      rw [hNone]
      decide
    · have hWords : Unbroken ", expected one of: ".toList := by decide
      rw [String.toList_append, Text.unbroken_append, and_iff_right hWords, unbroken_sortedNames]
  rw [hFound, hExpected]
  exact and_iff_right fun hEmpty => hNotEmpty hEmpty.1

/-- The wording for a character that was not expected is one line and not empty, whatever the
character is. -/
theorem description_unexpectedCharacter (char : Char) (spot : Spot) :
    description (.unexpectedCharacter char spot) ≠ "" ∧
      Unbroken (description (.unexpectedCharacter char spot)).toList := by
  have hText : description (.unexpectedCharacter char spot) =
      "no viable token at " ++ Text.quoted (String.singleton char) := rfl
  rw [hText, Ne, String.append_eq_empty_iff, String.toList_append, Text.unbroken_append]
  exact ⟨fun hEmpty => absurd hEmpty.1 (by decide), by decide, Text.unbroken_quoted _⟩

/-- Words of a fault are cut to one line, and a kind stands in where they are blank. -/
theorem firstLine?_getD (message kind : String) :
    ((Text.firstLine? message).getD kind ≠ "" ∧
        Unbroken ((Text.firstLine? message).getD kind).toList) ↔
      ((∀ c ∈ message.toList, isBlank c = true) → kind ≠ "" ∧ Unbroken kind.toList) := by
  rw [← Text.firstLine?_eq_none_iff]
  cases hFirst : Text.firstLine? message with
  | none => simp
  | some first => simpa using Text.unbroken_of_firstLine? hFirst

/-- A fault is described on one line, and not by an empty one, if and only if the names that are
shown are each on one line. -/
theorem description_iff (fault : Fault) :
    (fault.description ≠ "" ∧ Unbroken fault.description.toList) ↔ fault.NamesOnOneLine := by
  cases fault with
  | unexpectedToken kind text spot expected =>
      exact description_unexpectedToken_iff kind text spot expected
  | unexpectedCharacter char spot =>
      exact iff_of_true (description_unexpectedCharacter char spot) trivial
  | unexpectedEnd expected =>
      exact iff_of_true ((firstLine?_getD _ "UnexpectedEOF").mpr fun _ => by decide) trivial
  | misalignedLine message =>
      exact iff_of_true ((firstLine?_getD message "DedentError").mpr fun _ => by decide) trivial
  | unbalancedBracket =>
      exact iff_of_true ((firstLine?_getD "" "AssertionError").mpr fun _ => by decide) trivial
  | remarkAtEnd =>
      exact iff_of_true
        ((firstLine?_getD "list index out of range" "IndexError").mpr fun _ => by decide) trivial
  | other kind message spot => exact firstLine?_getD message kind

end Fault

namespace Diagnostic

/-- A diagnostic as it should be: no number of its place is negative, and its message is one line
that is not empty. -/
structure WellFormed (d : Diagnostic) : Prop where
  line : 0 ≤ d.line
  column : 0 ≤ d.column
  message : d.message ≠ ""
  unbroken : Unbroken d.message.toList

/-- The diagnostic of a fault is well formed exactly if the names that it quotes have no line
breaks. -/
theorem wellFormed_ofFault_iff (fault : Fault) :
    (ofFault fault).WellFormed ↔ fault.NamesOnOneLine := by
  rw [← fault.description_iff]
  constructor
  · intro h
    exact ⟨h.message, h.unbroken⟩
  · rintro ⟨hNotEmpty, hLine⟩
    exact ⟨Spot.natural_nonneg _, Spot.natural_nonneg _, hNotEmpty, hLine⟩

example :
    ofFault (.ofForeign "ValueError" (some "\u2028boom\u0085more detail") ⟨some (-1), none⟩) =
      ⟨0, 0, "boom", "ValueError"⟩ := by
  decide +kernel

end Diagnostic

namespace Log.Event

/-- The entry of a diagnostic has its place, its source and its message. -/
theorem text_diagnosed (source : String) (d : Diagnostic) :
    (diagnosed source d).text =
      "ERROR " ++ (if d.line = 0 then "(position unknown)"
        else "at line " ++ toString d.line ++ ":" ++ toString d.column) ++
      " in " ++ source ++ " - " ++ d.message :=
  rfl

/-- The entry of a diagnostic names its place if and only if its line is not zero. The two wordings
differ in the character after the first word. -/
theorem text_diagnosed_place (source : String) (d : Diagnostic) :
    ("ERROR at line " ++ toString d.line ++ ":" ++ toString d.column ++ " in ").toList <+:
      (diagnosed source d).text.toList ↔ d.line ≠ 0 := by
  rw [text_diagnosed]
  split
  · rename_i hUnknown
    refine iff_of_false ?_ (not_not_intro hUnknown)
    rintro ⟨rest, hRest⟩
    have hSame := congrArg (fun cs => cs[6]?) hRest
    simp only [String.toList_append, List.append_assoc] at hSame
    cases hSame
  · rename_i hKnown
    refine iff_of_true ⟨(source ++ " - " ++ d.message).toList, ?_⟩ hKnown
    have hStart : "ERROR at line " = "ERROR " ++ "at line " := by decide
    simp only [← String.toList_append, hStart, String.append_assoc]

/-- Only the source and the message can break the entry of a diagnostic. -/
theorem unbroken_text_diagnosed (source : String) (d : Diagnostic) :
    Unbroken (diagnosed source d).text.toList ↔
      Unbroken source.toList ∧ Unbroken d.message.toList := by
  have hPlace : Unbroken (if d.line = 0 then "(position unknown)"
      else "at line " ++ toString d.line ++ ":" ++ toString d.column).toList := by
    split
    · decide
    · have hLine : Unbroken "at line ".toList := by decide
      have hColon : Unbroken ":".toList := by decide
      simp only [String.toList_append, Text.unbroken_append, Text.unbroken_integer, hLine, hColon,
        and_true]
  have hWord : Unbroken "ERROR ".toList := by decide
  have hSource : Unbroken " in ".toList := by decide
  have hMessage : Unbroken " - ".toList := by decide
  rw [text_diagnosed]
  simp only [String.toList_append, Text.unbroken_append, hWord, hPlace, hSource, hMessage, true_and,
    and_true]

/-- The entry of a diagnostic is one line of the log if and only if the source and the message have
no line break. -/
theorem lines_line_diagnosed_iff (source : String) (d : Diagnostic) :
    Text.lines (diagnosed source d).line.toList =
        [("ERROR | " ++ (diagnosed source d).text).toList] ↔
      Unbroken source.toList ∧ Unbroken d.message.toList := by
  have hLine : (diagnosed source d).line.toList =
      ("ERROR | " ++ (diagnosed source d).text).toList ++ ['\n'] := by
    have hText : (diagnosed source d).line =
        "ERROR | " ++ (diagnosed source d).text ++ "\n" := rfl
    rw [hText, String.toList_append]
    rfl
  have hLevel : Unbroken "ERROR | ".toList := by decide
  rw [hLine, Text.lines_concat_eq_singleton_iff, String.toList_append, Text.unbroken_append,
    and_iff_right hLevel, unbroken_text_diagnosed]

end Log.Event

namespace Collector

/-- A collector records every fault that it is handed, each after those before it. -/
theorem diagnostics_foldl_record (c : Collector) (faults : List Fault) :
    (faults.foldl record c).source = c.source ∧
      (faults.foldl record c).diagnostics = c.diagnostics ++ faults.map .ofFault := by
  induction faults generalizing c with
  | nil => simp
  | cons fault faults ih => simpa [record] using ih (c.record fault)

/-- What a collector of a source makes of a fault. -/
structure Tells (source : String) (fault : Fault) : Prop where
  line : 0 ≤ (Diagnostic.ofFault fault).line
  column : 0 ≤ (Diagnostic.ofFault fault).column
  /-- The message is one line that is not empty if and only if the names that it shows are on one
  line. -/
  wellFormed_iff : (Diagnostic.ofFault fault).WellFormed ↔ fault.NamesOnOneLine
  /-- The message is the reason that a report tells. -/
  reason : (Diagnostic.ofFault fault).toJson.field? "message"
    = some (.string (Diagnostic.ofFault fault).message)
  /-- The entry is one line of the log if the name of the source is on one line as well. -/
  entry_iff : Text.lines (Log.Event.diagnosed source (.ofFault fault)).line.toList
      = [("ERROR | " ++ (Log.Event.diagnosed source (.ofFault fault)).text).toList] ↔
    Unbroken source.toList ∧ Unbroken (Diagnostic.ofFault fault).message.toList
  /-- The entry names the place if and only if the line is positive. -/
  place_iff : ("ERROR at line " ++ toString (Diagnostic.ofFault fault).line ++ ":"
      ++ toString (Diagnostic.ofFault fault).column ++ " in ").toList <+:
    (Log.Event.diagnosed source (.ofFault fault)).text.toList ↔ 0 < (Diagnostic.ofFault fault).line

/-- What becomes of faults that are handed to a collector one after the other. -/
structure Records (c : Collector) (faults : List Fault) : Prop where
  /-- Each adds one diagnostic. -/
  diagnostics : (faults.foldl record c).diagnostics = c.diagnostics ++ faults.map .ofFault
  /-- Each adds one entry of the log. -/
  log : (faults.foldl record c).log =
    c.log ++ faults.map fun fault => .diagnosed c.source (.ofFault fault)
  tells : ∀ fault, Tells c.source fault

/-- Whatever faults are handed to a collector, each adds one diagnostic and one entry of the log, both
of them well formed. This holds without a condition on the faults: those on names are told where they
are needed. -/
theorem faults_wellFormed (c : Collector) (faults : List Fault) : Records c faults := by
  obtain ⟨hSource, hDiagnostics⟩ := c.diagnostics_foldl_record faults
  refine ⟨hDiagnostics, ?_, fun fault => ?_⟩
  · rw [log, hSource, hDiagnostics, List.map_append, List.map_map]
    rfl
  · have hLine := Spot.natural_nonneg fault.spot.line
    refine ⟨hLine, Spot.natural_nonneg _, Diagnostic.wellFormed_ofFault_iff fault, rfl,
      Log.Event.lines_line_diagnosed_iff _ _, ?_⟩
    rw [Log.Event.text_diagnosed_place]
    have hRecorded : 0 ≤ (Diagnostic.ofFault fault).line := hLine
    omega

end Collector

end SyntaxSurvey
