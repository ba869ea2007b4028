import Mathlib.Data.List.TakeWhile
import Mathlib.Order.Bounds.Basic
import Reckoner.Proofs.InputLine

/-! # Word starts

A word of the input line starts at a cluster that is not blank and has none in front of it
or a blank one. A jump to the right ends at the next word start, or behind the text when
there is none; a jump to the left ends at the word start before, or in front of the text. -/

namespace Reckoner
namespace InputLine

variable {line : InputLine} {p : List Char → Bool} {clusters : List (List Char)}
  {start stop place : Nat}

/-! ## Steps over clusters -/

/-- The clusters from one place up to another satisfy a test, and the one after them, if there
is one, does not. -/
structure StepsRight (p : List Char → Bool) (clusters : List (List Char)) (start stop : Nat) :
    Prop where
  le : start ≤ stop
  holds : ∀ place, start ≤ place → place < stop → clusters[place]?.any p = true
  stops : clusters[stop]?.any p = false

/-- The clusters from one place back to another satisfy a test, and the one before them, if
there is one, does not. -/
structure StepsLeft (p : List Char → Bool) (clusters : List (List Char)) (start stop : Nat) :
    Prop where
  le : stop ≤ start
  holds : ∀ place, stop ≤ place → place < start → clusters[place]?.any p = true
  stops : stop = 0 ∨ clusters[stop - 1]?.any p = false

theorem any_getElem?_of_lt_takeWhile (h : place < (clusters.takeWhile p).length) :
    clusters[place]?.any p = true := by
  have hcluster : clusters[place]? = (clusters.takeWhile p)[place]? := by
    conv => lhs; rw [← List.takeWhile_append_dropWhile (p := p) (l := clusters)]
    exact List.getElem?_append_left h
  have hp : p (clusters.takeWhile p)[place] = true := List.mem_takeWhile_imp (List.getElem_mem h)
  rw [hcluster, List.getElem?_eq_getElem h]
  exact hp

theorem any_getElem?_takeWhile :
    clusters[(clusters.takeWhile p).length]?.any p = false := by
  have hcluster : clusters[(clusters.takeWhile p).length]? = (clusters.dropWhile p).head? := by
    conv => lhs; arg 1; rw [← List.takeWhile_append_dropWhile (p := p) (l := clusters)]
    rw [List.getElem?_append_right (Nat.le_refl _), Nat.sub_self, List.head?_eq_getElem?]
  rw [hcluster]
  have hnot := List.head?_dropWhile_not p clusters
  cases hhead : (clusters.dropWhile p).head? with
  | none => rfl
  | some cluster => simpa [hhead] using hnot

theorem stepsRight_takeWhile (p : List Char → Bool) (clusters : List (List Char)) (start : Nat) :
    StepsRight p clusters start (start + ((clusters.drop start).takeWhile p).length) where
  le := Nat.le_add_right _ _
  holds := by
    intro place hstart hstop
    have h : (clusters.drop start)[place - start]?.any p = true :=
      any_getElem?_of_lt_takeWhile (by omega)
    rwa [List.getElem?_drop, Nat.add_sub_cancel' hstart] at h
  stops := by
    rw [← List.getElem?_drop]
    exact any_getElem?_takeWhile

theorem getElem?_reverse_take (h : start ≤ clusters.length) (hplace : place < start) :
    (clusters.take start).reverse[start - 1 - place]? = clusters[place]? := by
  have hlength : (clusters.take start).length = start := by rw [List.length_take, Nat.min_eq_left h]
  rw [List.getElem?_reverse (by omega), hlength, List.getElem?_take, if_pos (by omega)]
  congr 1
  omega

theorem stepsLeft_takeWhile (p : List Char → Bool) (h : start ≤ clusters.length) :
    StepsLeft p clusters start (start - ((clusters.take start).reverse.takeWhile p).length) where
  le := Nat.sub_le _ _
  holds := by
    intro place hstop hstart
    rw [← getElem?_reverse_take h hstart]
    exact any_getElem?_of_lt_takeWhile (by omega)
  stops := by
    rw [or_iff_not_imp_left]
    intro hpos
    rw [← getElem?_reverse_take h (by omega)]
    have hplace : start - 1 - (start - ((clusters.take start).reverse.takeWhile p).length - 1) =
        ((clusters.take start).reverse.takeWhile p).length := by omega
    rw [hplace]
    exact any_getElem?_takeWhile

/-! ## Jumps -/

theorem exists_stepsRight (line : InputLine) :
    ∃ gap, StepsRight (!Text.isAllBlank ·) line.clusters line.cursor gap ∧
      StepsRight Text.isAllBlank line.clusters gap line.goWordRight.cursor := by
  refine ⟨_, stepsRight_takeWhile _ _ _, ?_⟩
  have h := stepsRight_takeWhile Text.isAllBlank line.clusters
    (line.cursor + ((line.clusters.drop line.cursor).takeWhile (!Text.isAllBlank ·)).length)
  rwa [Nat.add_assoc, ← List.drop_drop] at h

theorem exists_stepsLeft (h : line.cursor ≤ line.size) :
    ∃ gap, StepsLeft Text.isAllBlank line.clusters line.cursor gap ∧
      StepsLeft (!Text.isAllBlank ·) line.clusters gap line.goWordLeft.cursor := by
  have hgap := stepsLeft_takeWhile Text.isAllBlank h
  refine ⟨_, hgap, ?_⟩
  have hword := stepsLeft_takeWhile (!Text.isAllBlank ·) (Nat.le_trans hgap.le h)
  have hlength : (line.clusters.take line.cursor).length = line.cursor := by
    rw [List.length_take]
    exact Nat.min_eq_left h
  rw [goWordLeft, gapThenWord, ← Nat.sub_sub, List.drop_reverse, hlength, List.take_take,
    Nat.min_eq_left hgap.le]
  exact hword

/-- A cluster that is not blank stands at the place, and none in front of it or a blank one. -/
def IsWordStart (line : InputLine) (place : Nat) : Prop :=
  line.clusters[place]?.any (!Text.isAllBlank ·) = true ∧
    (place = 0 ∨ line.clusters[place - 1]?.any Text.isAllBlank = true)

instance (line : InputLine) (place : Nat) : Decidable (line.IsWordStart place) :=
  inferInstanceAs (Decidable (_ ∧ _))

theorem any_not_of_lt (h : place < clusters.length) :
    clusters[place]?.any (!p ·) = !clusters[place]?.any p := by
  rw [List.getElem?_eq_getElem h]
  rfl

theorem lt_length_of_any (h : clusters[place]?.any p = true) : place < clusters.length := by
  obtain ⟨cluster, hcluster, -⟩ := (Option.any_eq_true _ _).mp h
  exact (List.getElem?_eq_some_iff.mp hcluster).1

/-- A cluster does not satisfy a test and its opposite. -/
theorem not_any_not (h : clusters[place]?.any p = true) : clusters[place]?.any (!p ·) = false := by
  rw [any_not_of_lt (lt_length_of_any h), h]
  rfl

theorem IsWordStart.lt_size (h : line.IsWordStart place) : place < line.size :=
  lt_length_of_any h.1

theorem IsWordStart.not_blank (h : line.IsWordStart place) :
    line.clusters[place]?.any Text.isAllBlank = false := by
  have hsolid := h.1
  rw [any_not_of_lt h.lt_size] at hsolid
  simpa using hsolid

theorem IsWordStart.not_solid_before (h : line.IsWordStart place) (hpos : 0 < place) :
    line.clusters[place - 1]?.any (!Text.isAllBlank ·) = false :=
  not_any_not (h.2.resolve_left (Nat.pos_iff_ne_zero.mp hpos))

/-- No word starts between the cursor and the end of a jump to the right. -/
theorem goWordRight_le (hstart : line.IsWordStart place) (hplace : line.cursor < place) :
    line.goWordRight.cursor ≤ place := by
  obtain ⟨gap, hword, hblank⟩ := exists_stepsRight line
  by_contra hlt
  rcases Nat.lt_or_ge place gap with hin | hbehind
  · have h := hword.holds (place - 1) (by omega) (by omega)
    rw [hstart.not_solid_before (by omega)] at h
    cases h
  · have h := hblank.holds place hbehind (by omega)
    rw [hstart.not_blank] at h
    cases h

/-- Nor does one between the end of a jump to the left and the cursor. -/
theorem le_goWordLeft (h : line.cursor ≤ line.size) (hstart : line.IsWordStart place)
    (hplace : place < line.cursor) : place ≤ line.goWordLeft.cursor := by
  obtain ⟨gap, hblank, hword⟩ := exists_stepsLeft h
  by_contra hlt
  rcases Nat.lt_or_ge place gap with hin | hbehind
  · have h := hword.holds (place - 1) (by omega) (by omega)
    rw [hstart.not_solid_before (by omega)] at h
    cases h
  · have h := hblank.holds place hbehind hplace
    rw [hstart.not_blank] at h
    cases h

/-- A jump to the right that ends in front of a cluster ends at a word start. -/
theorem isWordStart_goWordRight (hlt : line.goWordRight.cursor < line.size) :
    line.IsWordStart line.goWordRight.cursor ∧ line.cursor < line.goWordRight.cursor := by
  obtain ⟨gap, hword, hblank⟩ := exists_stepsRight line
  have hsolid : line.clusters[line.goWordRight.cursor]?.any (!Text.isAllBlank ·) = true := by
    rw [any_not_of_lt hlt, hblank.stops]
    rfl
  -- The gap is not empty: in front of it is a cluster that is not the end of the word.
  have hgap : gap < line.goWordRight.cursor := by
    refine Nat.lt_of_le_of_ne hblank.le fun heq => ?_
    rw [← heq, hword.stops] at hsolid
    cases hsolid
  exact ⟨⟨hsolid, .inr (hblank.holds _ (by omega) (by omega))⟩, Nat.lt_of_le_of_lt hword.le hgap⟩

/-- A jump to the left ends at a word start or in front of the text, and then there is none
in front of the cursor. -/
theorem goWordLeft_cases (h : line.cursor ≤ line.size) :
    line.IsWordStart line.goWordLeft.cursor ∧ line.goWordLeft.cursor < line.cursor ∨
      (∀ place, line.IsWordStart place → line.cursor ≤ place) ∧ line.goWordLeft.cursor = 0 := by
  obtain ⟨gap, hblank, hword⟩ := exists_stepsLeft h
  have hsize : gap ≤ line.clusters.length := Nat.le_trans hblank.le h
  rcases Nat.lt_or_ge line.goWordLeft.cursor gap with hlt | hge
  · refine .inl ⟨⟨hword.holds _ (Nat.le_refl _) hlt, ?_⟩, Nat.lt_of_lt_of_le hlt hblank.le⟩
    refine hword.stops.imp_right fun hstops => ?_
    rw [any_not_of_lt (by omega)] at hstops
    simpa using hstops
  · have heq : gap = line.goWordLeft.cursor := Nat.le_antisymm hge hword.le
    -- In front of the gap stands nothing, as a cluster is blank or not.
    have hzero : gap = 0 := by
      by_contra hne
      have hnot := hword.stops.resolve_left (heq ▸ hne)
      rw [← heq, any_not_of_lt (by omega), hblank.stops.resolve_left hne] at hnot
      cases hnot
    refine .inr ⟨fun place hstart => ?_, heq ▸ hzero⟩
    by_contra hlt
    have hover := hblank.holds place (by omega) (by omega)
    rw [hstart.not_blank] at hover
    cases hover

theorem goWordRight_cases (h : line.cursor ≤ line.size) :
    line.IsWordStart line.goWordRight.cursor ∧ line.cursor < line.goWordRight.cursor ∨
      line.goWordRight.cursor = line.size := by
  have hsize : line.goWordRight.cursor ≤ line.size := cursor_edit_le h (.word true)
  rcases Nat.lt_or_ge line.goWordRight.cursor line.size with hlt | hge
  · exact .inl (isWordStart_goWordRight hlt)
  · exact .inr (Nat.le_antisymm hsize hge)

/-- From a word start a jump to the right and one to the left lead back. -/
theorem goWordLeft_goWordRight (h : line.cursor ≤ line.size)
    (hstart : line.IsWordStart line.cursor) : line.goWordRight.goWordLeft = line := by
  have hahead : line.cursor < line.goWordRight.cursor := by
    rcases goWordRight_cases h with ⟨-, hlt⟩ | hsize
    · exact hlt
    · rw [hsize]
      exact hstart.lt_size
  have hright : line.goWordRight.cursor ≤ line.goWordRight.size := cursor_edit_le h (.word true)
  have hle : line.cursor ≤ line.goWordRight.goWordLeft.cursor := le_goWordLeft hright hstart hahead
  have hcursor : line.goWordRight.goWordLeft.cursor = line.cursor := by
    rcases goWordLeft_cases hright with ⟨hback, hlt⟩ | ⟨hnone, -⟩
    · refine Nat.le_antisymm ?_ hle
      by_contra hbetween
      have hfirst : line.goWordRight.cursor ≤ line.goWordRight.goWordLeft.cursor :=
        goWordRight_le hback (Nat.not_le.mp hbetween)
      omega
    · exact absurd (hnone line.cursor hstart) (Nat.not_le.mpr hahead)
  calc line.goWordRight.goWordLeft
      = ⟨line.chars, line.goWordRight.goWordLeft.cursor⟩ := rfl
    _ = line := by rw [hcursor]

/-- Whatever has been done to a line, a jump to the right ends at the first word start behind
the cursor and one to the left at the last word start in front of it. Where there is none the
jump ends at the end of the text or at its start. The text stays, and from a word start a jump
to the right and one to the left lead back. -/
theorem word_jumps (edits : List Edit) :
    let line := empty.editAll edits
    line.goWordRight.chars = line.chars ∧ line.goWordLeft.chars = line.chars ∧
      (IsLeast {place | line.IsWordStart place ∧ line.cursor < place} line.goWordRight.cursor ∨
        (∀ place, line.IsWordStart place → place ≤ line.cursor) ∧
          line.goWordRight.cursor = line.size) ∧
      (IsGreatest {place | line.IsWordStart place ∧ place < line.cursor} line.goWordLeft.cursor ∨
        (∀ place, line.IsWordStart place → line.cursor ≤ place) ∧ line.goWordLeft.cursor = 0) ∧
      (line.IsWordStart line.cursor → line.goWordRight.goWordLeft = line) := by
  intro line
  have h : line.cursor ≤ line.size := cursor_editAll_le (Nat.le_refl 0) edits
  refine ⟨rfl, rfl, ?right, ?left, goWordLeft_goWordRight h⟩
  case right =>
    refine (goWordRight_cases h).imp (fun hfirst => ⟨hfirst, fun place hplace =>
      goWordRight_le hplace.1 hplace.2⟩) fun hsize => ⟨fun place hstart => ?_, hsize⟩
    by_contra hlt
    have hle := goWordRight_le hstart (Nat.not_le.mp hlt)
    rw [hsize] at hle
    exact absurd hstart.lt_size (Nat.not_lt.mpr hle)
  case left =>
    exact (goWordLeft_cases h).imp_left fun hlast =>
      ⟨hlast, fun place hplace => le_goWordLeft h hplace.1 hplace.2⟩

theorem word_jumps_sum :
    let line := empty.editAll [.set "x = 12 + y", .word false, .word false]
    line.cursor = 7 ∧ line.IsWordStart 7 ∧ line.goWordRight.cursor = 9 ∧
      line.goWordRight.goWordLeft = line := by
  intro line
  have hcursor : line.cursor = 7 := by decide +kernel
  have hstart : line.IsWordStart 7 := by decide +kernel
  obtain ⟨-, -, -, -, hback⟩ := word_jumps [.set "x = 12 + y", .word false, .word false]
  exact ⟨hcursor, hstart, by decide +kernel, hback (hcursor ▸ hstart)⟩

end InputLine
end Reckoner
