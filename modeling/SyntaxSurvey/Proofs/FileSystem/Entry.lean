import SyntaxSurvey.FileSystem.Entry
import SyntaxSurvey.Proofs.Path

/-! Directory trees seen place by place. What stands at a place is a file, a link or a directory;
putting a file or an empty directory at a place changes what stands there and nothing else. -/

open SyntaxSurvey.Path (IsPart)

namespace SyntaxSurvey.FileSystem

/-- What stands at a place, without what lies below it. -/
inductive Kind where
  | file (content : List UInt8)
  | link (target : String)
  | directory

/-- A name that a directory can list. -/
structure IsName (name : String) : Prop extends IsPart name where
  notParent : name ≠ ".."

instance (name : String) : Decidable (IsName name) :=
  decidable_of_iff (IsPart name ∧ name ≠ "..")
    ⟨fun h => ⟨h.1, h.2⟩, fun h => ⟨h.toIsPart, h.notParent⟩⟩

namespace Entry

/-- What an entry is, without what lies below it. -/
def kind : Entry → Kind
  | .file content => .file content
  | .link target => .link target
  | .directory _ => .directory

def isFile : Entry → Bool
  | .file _ => true
  | _ => false

def kind? (root : Entry) (place : Location) : Option Kind :=
  (root.at? place).map kind

/-- A directory tree without links. Every directory lists each of its names once, and nothing but
names. -/
structure Plain (root : Entry) : Prop where
  linkless : ∀ place target, root.kind? place ≠ some (.link target)
  named : ∀ place entries, root.at? place = some (.directory entries) →
    ∀ name ∈ entries.map Prod.fst, IsName name
  distinct : ∀ place entries, root.at? place = some (.directory entries) →
    (entries.map Prod.fst).Nodup

/-- Names are followed one part of them after the other. -/
theorem at?_append (root : Entry) (place rest : Location) :
    root.at? (place ++ rest) = (root.at? place).bind (·.at? rest) := by
  induction place generalizing root with
  | nil => rfl
  | cons name place ih =>
      rw [List.cons_append, at?, at?]
      cases root.child? name with
      | none => rfl
      | some child => exact ih child

/-- The last of some names is followed from what the others lead to. -/
theorem at?_concat (root : Entry) (place : Location) (name : String) :
    root.at? (place ++ [name]) = (root.at? place).bind (·.child? name) := by
  rw [at?_append]
  cases root.at? place with
  | none => rfl
  | some entry => simp [at?]

theorem kind?_cons (root : Entry) (name : String) (place : Location) :
    root.kind? (name :: place) = (root.child? name).bind (·.kind? place) := by
  rw [kind?, at?]
  cases root.child? name with
  | none => rfl
  | some child => rfl

theorem kind?_eq_directory {root : Entry} {place : Location} :
    root.kind? place = some .directory ↔ ∃ entries, root.at? place = some (.directory entries) := by
  constructor
  · intro hKind
    obtain ⟨entry, hAt, hEntry⟩ := Option.map_eq_some_iff.mp hKind
    cases entry with
    | file content => cases hEntry
    | link target => cases hEntry
    | directory entries => exact ⟨entries, hAt⟩
  · rintro ⟨entries, hAt⟩
    simp [kind?, hAt, kind]

theorem kind?_eq_file {root : Entry} {place : Location} {content : List UInt8} :
    root.kind? place = some (.file content) ↔ root.at? place = some (.file content) := by
  constructor
  · intro hKind
    obtain ⟨entry, hAt, hEntry⟩ := Option.map_eq_some_iff.mp hKind
    cases entry with
    | file found =>
        cases hEntry
        exact hAt
    | link target => cases hEntry
    | directory entries => cases hEntry
  · intro hAt
    simp [kind?, hAt, kind]

theorem kind?_eq_none {root : Entry} {place : Location} :
    root.kind? place = none ↔ root.at? place = none := by
  simp [kind?]

/-- Only a directory has something below it. -/
theorem directory_of_at?_concat {root entry : Entry} {place : Location} {name : String}
    (hAt : root.at? (place ++ [name]) = some entry) :
    ∃ entries, root.at? place = some (.directory entries) ∧ entries.lookup name = some entry := by
  rw [at?_concat] at hAt
  obtain ⟨parent, hParent, hChild⟩ := Option.bind_eq_some_iff.mp hAt
  cases parent with
  | file content => cases hChild
  | link target => cases hChild
  | directory entries => exact ⟨entries, hParent, hChild⟩

/-- What is looked up in a directory is listed there. -/
theorem mem_of_lookup {entries : List (String × Entry)} {name : String} {entry : Entry}
    (hLookup : entries.lookup name = some entry) : (name, entry) ∈ entries := by
  obtain ⟨before, after, rfl, -⟩ := List.lookup_eq_some_iff.mp hLookup
  simp

/-- What lies in a plain tree has a name. -/
theorem Plain.isName_of_at?_concat {root entry : Entry} {place : Location} {name : String}
    (hPlain : root.Plain) (hAt : root.at? (place ++ [name]) = some entry) : IsName name := by
  obtain ⟨entries, hParent, hLookup⟩ := directory_of_at?_concat hAt
  refine hPlain.named place entries hParent name ?_
  exact List.mem_map.mpr ⟨(name, entry), mem_of_lookup hLookup, rfl⟩

theorem lookup_cons_eq {α : Type} (key name : String) (value : α) (rest : List (String × α)) :
    ((key, value) :: rest).lookup name = if name = key then some value else rest.lookup name := by
  by_cases hName : name = key
  · simp [hName]
  · have hBeq : (name == key) = false := by simpa using hName
    simp [List.lookup_cons, hBeq, hName]

/-- After an assignment the name has the entry, and every other name what it had. -/
theorem lookup_assign (name other : String) (entry : Entry) (entries : List (String × Entry)) :
    (assign name entry entries).lookup other
      = if other = name then some entry else entries.lookup other := by
  induction entries with
  | nil => exact lookup_cons_eq name other entry []
  | cons head rest ih =>
      obtain ⟨key, old⟩ := head
      rw [assign]
      by_cases hKey : name = key
      · subst hKey
        simp only [if_true, lookup_cons_eq]
        split <;> rfl
      · simp only [hKey, if_false, lookup_cons_eq, ih]
        by_cases hName : other = key
        · simp [hName, Ne.symm hKey]
        · simp [hName]

/-- An assignment adds the name at the end, unless it was there. -/
theorem names_assign (name : String) (entry : Entry) (entries : List (String × Entry)) :
    (assign name entry entries).map Prod.fst
      = if name ∈ entries.map Prod.fst then entries.map Prod.fst
        else entries.map Prod.fst ++ [name] := by
  induction entries with
  | nil => rfl
  | cons head rest ih =>
      obtain ⟨key, old⟩ := head
      rw [assign]
      by_cases hKey : name = key
      · simp [hKey]
      · simp only [hKey, if_false, List.map_cons, ih, List.mem_cons, false_or]
        split <;> simp

/-- Putting something below an entry of a directory changes that entry alone. -/
theorem at?_put_cons (entries : List (String × Entry)) (name other : String)
    (rest place : Location) (new : Entry) :
    ((directory entries).put (name :: rest) new).at? (other :: place)
      = if other = name then (((entries.lookup name).getD (.directory [])).put rest new).at? place
        else (directory entries).at? (other :: place) := by
  rw [put, at?, child?, lookup_assign]
  by_cases hName : other = name
  · simp [hName]
  · simp [hName, at?, child?]

/-- An entry that has nothing below it. -/
def IsLeaf (entry : Entry) : Prop :=
  ∀ name, entry.child? name = none

/-- Nothing lies below a leaf. -/
theorem IsLeaf.at?_cons {entry : Entry} (hLeaf : entry.IsLeaf) (name : String) (place : Location) :
    entry.at? (name :: place) = none := by
  rw [at?, hLeaf name]
  rfl

theorem isLeaf_file (content : List UInt8) : (file content).IsLeaf :=
  fun _ => rfl

theorem isLeaf_directory : (directory []).IsLeaf :=
  fun _ => rfl

/-- After something without anything below it was put at a place that held no directory, that
place holds it, and every other place holds what it held before. -/
theorem kind?_put {root new : Entry} {parent : Location} {name : String} (hLeaf : new.IsLeaf)
    (hParent : root.kind? parent = some .directory)
    (hOld : root.kind? (parent ++ [name]) ≠ some .directory) (place : Location) :
    (root.put (parent ++ [name]) new).kind? place
      = if place = parent ++ [name] then some new.kind else root.kind? place := by
  induction parent generalizing root place with
  | nil =>
      obtain ⟨entries, hRoot⟩ := kind?_eq_directory.mp hParent
      cases hRoot
      cases place with
      | nil => rfl
      | cons other rest =>
          simp only [kind?, List.nil_append, at?_put_cons]
          by_cases hOther : other = name
          · subst hOther
            cases rest with
            | nil => simp [put, at?]
            | cons next below =>
                -- nothing stood below a place that was no directory, and nothing stands there now
                have hBelow : (directory entries).at? (other :: next :: below) = none := by
                  cases hAt : (directory entries).at? ([other] ++ [next] ++ below) with
                  | none => exact hAt
                  | some entry =>
                      rw [at?_append] at hAt
                      obtain ⟨child, hChild, -⟩ := Option.bind_eq_some_iff.mp hAt
                      obtain ⟨inner, hInner, -⟩ := directory_of_at?_concat hChild
                      exact absurd (kind?_eq_directory.mpr ⟨inner, hInner⟩) hOld
                simp [put, hLeaf.at?_cons, hBelow]
          · simp [hOther]
  | cons first parent ih =>
      rw [kind?_cons] at hParent
      obtain ⟨child, hChild, hInner⟩ := Option.bind_eq_some_iff.mp hParent
      cases root with
      | file content => cases hChild
      | link target => cases hChild
      | directory entries =>
          have hLookup : entries.lookup first = some child := hChild
          have hOldInner : child.kind? (parent ++ [name]) ≠ some .directory := by
            simpa [kind?_cons, hChild] using hOld
          cases place with
          | nil => rfl
          | cons other rest =>
              rw [kind?, List.cons_append, at?_put_cons, hLookup]
              by_cases hOther : other = first
              · subst hOther
                have hInside := ih hInner hOldInner rest
                rw [kind?] at hInside
                simpa [kind?_cons, hChild] using hInside
              · simp [hOther, kind?]

theorem plain_file (content : List UInt8) : (file content).Plain where
  linkless place target := by
    cases place with
    | nil => simp [kind?, at?, kind]
    | cons name rest => simp [kind?_cons, child?]
  named place entries hAt := by
    cases place with
    | nil => cases hAt
    | cons name rest => cases hAt
  distinct place entries hAt := by
    cases place with
    | nil => cases hAt
    | cons name rest => cases hAt

theorem plain_directory {entries : List (String × Entry)}
    (hNames : ∀ name ∈ entries.map Prod.fst, IsName name)
    (hDistinct : (entries.map Prod.fst).Nodup)
    (hPlain : ∀ entry ∈ entries, entry.2.Plain) : (directory entries).Plain where
  linkless place target := by
    cases place with
    | nil => simp [kind?, at?, kind]
    | cons name rest =>
        rw [kind?_cons]
        intro hKind
        obtain ⟨child, hLookup, hLink⟩ := Option.bind_eq_some_iff.mp hKind
        exact (hPlain _ (mem_of_lookup hLookup)).linkless rest target hLink
  named place inner hAt := by
    cases place with
    | nil =>
        cases hAt
        exact hNames
    | cons name rest =>
        obtain ⟨child, hLookup, hInner⟩ := Option.bind_eq_some_iff.mp hAt
        exact (hPlain _ (mem_of_lookup hLookup)).named rest inner hInner
  distinct place inner hAt := by
    cases place with
    | nil =>
        cases hAt
        exact hDistinct
    | cons name rest =>
        obtain ⟨child, hLookup, hInner⟩ := Option.bind_eq_some_iff.mp hAt
        exact (hPlain _ (mem_of_lookup hLookup)).distinct rest inner hInner

/-- What is at a place after a put is part of what was put, or was there before, or is a directory
in which one entry has been assigned. -/
theorem at?_put_cases {root new entry : Entry} {parent : Location} {name : String}
    (hParent : root.kind? parent = some .directory) {place : Location}
    (hAt : (root.put (parent ++ [name]) new).at? place = some entry) :
    (∃ rest, new.at? rest = some entry) ∨ root.at? place = some entry
      ∨ ∃ entries key inner, root.at? place = some (.directory entries)
          ∧ entry = .directory (assign key inner entries)
          ∧ (key ∈ entries.map Prod.fst ∨ key = name) := by
  induction parent generalizing root place with
  | nil =>
      obtain ⟨entries, hRoot⟩ := kind?_eq_directory.mp hParent
      cases hRoot
      cases place with
      | nil =>
          cases hAt
          exact Or.inr (Or.inr ⟨entries, name, _, rfl, rfl, Or.inr rfl⟩)
      | cons other rest =>
          rw [List.nil_append, at?_put_cons] at hAt
          by_cases hOther : other = name
          · rw [if_pos hOther] at hAt
            exact Or.inl ⟨rest, hAt⟩
          · rw [if_neg hOther] at hAt
            exact Or.inr (Or.inl hAt)
  | cons first parent ih =>
      rw [kind?_cons] at hParent
      obtain ⟨child, hChild, hInner⟩ := Option.bind_eq_some_iff.mp hParent
      cases root with
      | file content => cases hChild
      | link target => cases hChild
      | directory entries =>
          have hLookup : entries.lookup first = some child := hChild
          cases place with
          | nil =>
              cases hAt
              have hFirst : first ∈ entries.map Prod.fst :=
                List.mem_map.mpr ⟨(first, child), mem_of_lookup hLookup, rfl⟩
              exact Or.inr (Or.inr ⟨entries, first, _, rfl, rfl, Or.inl hFirst⟩)
          | cons other rest =>
              rw [List.cons_append, at?_put_cons, hLookup] at hAt
              by_cases hOther : other = first
              · subst hOther
                have hDown : (directory entries).at? (other :: rest) = child.at? rest := by
                  rw [at?, hChild]
                  rfl
                rw [if_pos rfl] at hAt
                rw [hDown]
                exact ih hInner hAt
              · rw [if_neg hOther] at hAt
                exact Or.inr (Or.inl hAt)

/-- A tree stays plain when something plain is put into one of its directories under a name. -/
theorem Plain.put {root new : Entry} {parent : Location} {name : String} (hRoot : root.Plain)
    (hNew : new.Plain) (hName : IsName name) (hParent : root.kind? parent = some .directory) :
    (root.put (parent ++ [name]) new).Plain where
  linkless place target := by
    intro hKind
    obtain ⟨entry, hAt, hLink⟩ := Option.map_eq_some_iff.mp hKind
    rcases at?_put_cases hParent hAt with ⟨rest, hInner⟩ | hOld | ⟨entries, key, inner, -, rfl, -⟩
    · exact hNew.linkless rest target (by simp [kind?, hInner, hLink])
    · exact hRoot.linkless place target (by simp [kind?, hOld, hLink])
    · cases hLink
  named place entries hAt other hOther := by
    rcases at?_put_cases hParent hAt with ⟨rest, hInner⟩ | hOld | ⟨old, key, inner, hOld, hEq, hKey⟩
    · exact hNew.named rest entries hInner other hOther
    · exact hRoot.named place entries hOld other hOther
    · cases hEq
      rw [names_assign] at hOther
      split at hOther
      · exact hRoot.named place old hOld other hOther
      · rcases List.mem_append.mp hOther with hBefore | hAdded
        · exact hRoot.named place old hOld other hBefore
        · obtain rfl : other = key := by simpa using hAdded
          rcases hKey with hBefore | rfl
          · exact hRoot.named place old hOld other hBefore
          · exact hName
  distinct place entries hAt := by
    rcases at?_put_cases hParent hAt with ⟨rest, hInner⟩ | hOld | ⟨old, key, inner, hOld, hEq, -⟩
    · exact hNew.distinct rest entries hInner
    · exact hRoot.distinct place entries hOld
    · cases hEq
      have hNodup := hRoot.distinct place old hOld
      rw [names_assign]
      split
      · exact hNodup
      · rename_i hAbsent
        have hApart : ∀ other ∈ old.map Prod.fst, ∀ added ∈ [key], other ≠ added := by
          rintro other hOther added hAdded rfl
          exact hAbsent (by simpa [List.mem_singleton.mp hAdded] using hOther)
        exact List.nodup_append.mpr ⟨hNodup, by simp, hApart⟩

end Entry

end SyntaxSurvey.FileSystem
