import SyntaxSurvey.FileSystem.Operations
import SyntaxSurvey.Proofs.FileSystem.Lookup

/-! Writing a file into a directory that a path denotes. The file stands at its name in that
directory afterwards, and every other place is as it was. -/

namespace SyntaxSurvey.FileSystem

/-- The place of a file in a directory is found by its name alone. -/
theorem findFor_child {fs : FileSystem} (hPlain : fs.root.Plain) {directory : Path}
    (hDirectory : directory.Normal) {name : String} (hName : IsName name) {aim : Aim}
    {place : Location} {entries : List (String × Entry)}
    (hFind : fs.find directory = .ok (.present place (.directory entries)))
    (hAllowed : refuse? (directory.child name) = none) :
    fs.findFor aim (directory.child name)
      = if longestName < name.utf8ByteSize then .error .nameTooLong
        else match fs.root.at? (place ++ [name]) with
          | none => .ok (.absent place name)
          | some entry => .ok (.present (place ++ [name]) entry) := by
  obtain ⟨-, hLeads⟩ := (findFor_eq_present_iff hPlain hDirectory).mp hFind
  have hStart : fs.start (directory.child name) = fs.start directory := rfl
  have hParts : (directory.child name).parts = directory.parts ++ [name] := rfl
  obtain ⟨onLink, hWalk⟩ := exists_walk_eq fs.root aim
  simp only [findFor, hAllowed, hStart, hWalk, hParts]
  rw [walkWith_append fs.root aim onLink hDirectory (by simpa using hName.toIsPart) hLeads,
    walkWith_name fs.root aim onLink hName (by simp)]
  split
  · rfl
  · cases hAt : fs.root.at? (place ++ [name]) with
    | none => rfl
    | some entry =>
        cases entry with
        | file content => rfl
        | directory inner => simp [walkWith, hAt]
        | link target =>
            have hLink := hPlain.linkless (place ++ [name]) target
            exact absurd (by simp [Entry.kind?, hAt, Entry.kind]) hLink

/-- After a file was written into a directory, its place holds the bytes, and every other place
what it held before. -/
theorem write_child_ok {fs later : FileSystem} (hPlain : fs.root.Plain) {directory : Path}
    (hDirectory : directory.Normal) {name : String} (hName : IsName name) {place : Location}
    {entries : List (String × Entry)} {content : List UInt8}
    (hFind : fs.find directory = .ok (.present place (.directory entries)))
    (hWrite : fs.write (directory.child name) content = .ok later) :
    later.here = fs.here ∧ later.root.Plain
      ∧ fs.root.kind? (place ++ [name]) ≠ some .directory
      ∧ ∀ other, later.root.kind? other
          = if other = place ++ [name] then some (.file content) else fs.root.kind? other := by
  obtain ⟨-, hLeads⟩ := (findFor_eq_present_iff hPlain hDirectory).mp hFind
  have hParent : fs.root.kind? place = some .directory :=
    Entry.kind?_eq_directory.mpr ⟨entries, hLeads.at?⟩
  have hPut : later = { fs with root := fs.root.put (place ++ [name]) (.file content) }
      ∧ fs.root.kind? (place ++ [name]) ≠ some .directory := by
    rw [write, update] at hWrite
    cases hAllowed : refuse? (directory.child name) with
    | some cause => simp [findFor, hAllowed] at hWrite
    | none =>
        rw [findFor_child hPlain hDirectory hName hFind hAllowed] at hWrite
        by_cases hLong : longestName < name.utf8ByteSize
        · simp [hLong] at hWrite
        · cases hAt : fs.root.at? (place ++ [name]) with
          | none =>
              simp only [hLong, hAt, if_false, Except.ok.injEq] at hWrite
              exact ⟨hWrite.symm, by simp [Entry.kind?, hAt]⟩
          | some entry =>
              simp only [hLong, hAt, if_false] at hWrite
              cases entry with
              | file old =>
                  cases hWrite
                  exact ⟨rfl, by simp [Entry.kind?, hAt, Entry.kind]⟩
              | directory inner => cases hWrite
              | link target => cases hWrite
  obtain ⟨rfl, hNoDirectory⟩ := hPut
  exact ⟨rfl, hPlain.put (Entry.plain_file content) hName hParent, hNoDirectory,
    Entry.kind?_put (Entry.isLeaf_file content) hParent hNoDirectory⟩

/-- Whether a file can be written into a directory depends on its path and on whether a directory
stands at its name. -/
theorem write_child_outcome {fs : FileSystem} (hPlain : fs.root.Plain) {directory : Path}
    (hDirectory : directory.Normal) {name : String} (hName : IsName name) {place : Location}
    {entries : List (String × Entry)} (content : List UInt8)
    (hFind : fs.find directory = .ok (.present place (.directory entries)))
    (hAllowed : refuse? (directory.child name) = none) :
    (fs.write (directory.child name) content).map (fun _ => ())
      = if longestName < name.utf8ByteSize then .error ⟨.nameTooLong, directory.child name⟩
        else match fs.root.kind? (place ++ [name]) with
          | some .directory => .error ⟨.isDirectory, directory.child name⟩
          | _ => .ok () := by
  rw [write, update, findFor_child hPlain hDirectory hName hFind hAllowed, Entry.kind?]
  by_cases hLong : longestName < name.utf8ByteSize
  · simp [hLong, Except.map]
  · cases hAt : fs.root.at? (place ++ [name]) with
    | none => simp [hLong, Except.map]
    | some entry =>
        cases entry with
        | file old => simp [hLong, Except.map, Entry.kind]
        | directory inner => simp [hLong, Except.map, Entry.kind]
        | link target =>
            have hLink := hPlain.linkless (place ++ [name]) target
            exact absurd (by simp [Entry.kind?, hAt, Entry.kind]) hLink

/-- Whether a file can be written into a directory depends only on its path and on whether a
directory has that name there. -/
theorem write_child_congr {fs other : FileSystem} (hPlain : fs.root.Plain)
    (hOther : other.root.Plain) {directory : Path} (hDirectory : directory.Normal) {name : String}
    (hName : IsName name) {place otherPlace : Location}
    {entries otherEntries : List (String × Entry)} (content : List UInt8)
    (hFind : fs.find directory = .ok (.present place (.directory entries)))
    (hOtherFind : other.find directory = .ok (.present otherPlace (.directory otherEntries)))
    (hTaken : fs.root.kind? (place ++ [name]) = some .directory
      ↔ other.root.kind? (otherPlace ++ [name]) = some .directory) :
    (fs.write (directory.child name) content).map (fun _ => ())
      = (other.write (directory.child name) content).map (fun _ => ()) := by
  cases hAllowed : refuse? (directory.child name) with
  | some cause => simp [write, update, findFor, hAllowed]
  | none =>
      rw [write_child_outcome hPlain hDirectory hName content hFind hAllowed,
        write_child_outcome hOther hDirectory hName content hOtherFind hAllowed]
      by_cases hKind : fs.root.kind? (place ++ [name]) = some .directory
      · rw [hKind, hTaken.mp hKind]
      · have hOtherKind := mt hTaken.mpr hKind
        split
        · rfl
        · split
          · exact absurd ‹_› hKind
          · rfl

end SyntaxSurvey.FileSystem
