import SyntaxSurvey.Token

/-! Places as offsets. A line and a column say how many characters of a text come before a place, so
places are compared as offsets are. -/

namespace SyntaxSurvey

namespace Position

def ofOffset (cs : List Char) (offset : Nat) : Position :=
  first.after (cs.take offset)

/-- The line of the place at an offset starts at another offset: at the start of the text or after a
line feed, with no line feed in between. -/
structure StartsLine (cs : List Char) (start offset : Nat) : Prop where
  le : start ≤ offset
  opens : start = 0 ∨ 0 < start ∧ cs[start - 1]? = some '\n'
  unbroken : ∀ i, start ≤ i → i < offset → cs[i]? ≠ some '\n'

variable {cs : List Char} {offset later : Nat}

/-- One character further is one advance. -/
theorem ofOffset_succ {c : Char} (h : cs[offset]? = some c) :
    ofOffset cs (offset + 1) = (ofOffset cs offset).advance c := by
  rw [ofOffset, ofOffset, List.take_add_one, h, after_append]
  rfl

/-- So many characters further are as many advances. -/
theorem ofOffset_add (cs : List Char) (offset count : Nat) :
    ofOffset cs (offset + count)
      = (ofOffset cs offset).after ((cs.drop offset).take count) := by
  rw [ofOffset, ofOffset, ← after_append, List.take_add]

/-- Line and column of a place, from its offset and the offset at which its line starts. -/
theorem exists_startsLine (h : offset ≤ cs.length) :
    ∃ start, StartsLine cs start offset
      ∧ ofOffset cs offset = ⟨1 + (cs.take offset).count '\n', 1 + offset - start⟩ := by
  induction offset with
  | zero => exact ⟨0, ⟨Nat.le_refl _, Or.inl rfl, by omega⟩, by simp [ofOffset, first]⟩
  | succ offset ih =>
      obtain ⟨start, hStarts, hPlace⟩ := ih (by omega)
      have hNext : cs[offset]? = some cs[offset] := List.getElem?_eq_getElem h
      rw [ofOffset_succ hNext, hPlace, advance, List.take_add_one, hNext, List.count_append]
      by_cases hFeed : cs[offset] = '\n'
      · refine ⟨offset + 1, ⟨Nat.le_refl _, Or.inr ⟨by omega, by simpa [hFeed] using hNext⟩,
          by omega⟩, ?_⟩
        simp only [hFeed, ↓reduceIte, Option.toList_some, List.count_singleton_self]
        congr 1
        omega
      · have hLe := hStarts.le
        refine ⟨start, ⟨by omega, hStarts.opens, fun i hStart hLess => ?_⟩, ?_⟩
        · rcases Nat.lt_succ_iff_lt_or_eq.mp hLess with hBefore | rfl
          · exact hStarts.unbroken i hStart hBefore
          · simpa [hNext] using hFeed
        · have hNone : List.count '\n' [cs[offset]] = 0 := by simp [hFeed]
          simp only [hFeed, ↓reduceIte, Option.toList_some, hNone, Nat.add_zero]
          congr 1
          omega

/-- A place that comes before another one as both are read. -/
def Before (p q : Position) : Prop :=
  p.line < q.line ∨ p.line = q.line ∧ p.column < q.column

theorem Before.trans {p q r : Position} (left : p.Before q) (right : q.Before r) : p.Before r := by
  unfold Before at *
  omega

/-- Every advance leads to a later position. -/
theorem before_advance (p : Position) (c : Char) : p.Before (p.advance c) := by
  rw [advance, Before]
  split
  · exact Or.inl (Nat.lt_succ_self _)
  · exact Or.inr ⟨rfl, Nat.lt_succ_self _⟩

/-- Later offsets are later places. -/
theorem ofOffset_before (hLess : offset < later) (hLater : later ≤ cs.length) :
    (ofOffset cs offset).Before (ofOffset cs later) := by
  induction later with
  | zero => omega
  | succ later ih =>
      have hStep : (ofOffset cs later).Before (ofOffset cs (later + 1)) := by
        rw [ofOffset_succ (List.getElem?_eq_getElem hLater)]
        exact before_advance _ _
      rcases Nat.lt_succ_iff_lt_or_eq.mp hLess with hBefore | rfl
      · exact (ih hBefore (by omega)).trans hStep
      · exact hStep

/-- Later offsets have no earlier positions. -/
theorem ofOffset_not_before (hLe : offset ≤ later) (hLater : later ≤ cs.length) :
    ¬(ofOffset cs later).Before (ofOffset cs offset) := by
  intro hBack
  rcases Nat.lt_or_eq_of_le hLe with hLess | rfl
  · have hForth := ofOffset_before hLess hLater
    unfold Before at hBack hForth
    omega
  · unfold Before at hBack
    omega

end Position

end SyntaxSurvey
