import Reckoner.Proofs.Respacing

/-! # The normal form of spacing

Which characters may stand side by side decides whether a text is spaced. Every
character is written next to one that it may stand next to, and a spaced text is
written as it is. -/

namespace Reckoner

open Unicode
open Text (isBlank_space)

namespace Respacing

/-- The characters may stand side by side in a spaced text. -/
structure Fits (left right : Char) : Prop where
  single : isBlank left = true → isBlank right = false
  behindOpen : left = '(' → isBlank right = false
  beforeClose : right = ')' → isBlank left = false
  beforeSign : isInfix right = true → left = ' ' ∨ left = '('
  behindSign : isInfix left = true → right = ' ' ∨ right = ')'
  beforeOpen : right = '(' → left = ' ' ∨ left = '('
  behindClose : left = ')' → right = ' ' ∨ right = ')'

/-- The text neither begins nor ends with a space, has single spaces and no other
blanks, and each character may stand next to the one behind it. -/
structure Spaced (text : List Char) : Prop where
  first : ∀ c ∈ text.head?, isBlank c = false
  last : ∀ c ∈ text.getLast?, isBlank c = false
  blank : ∀ c ∈ text, isBlank c = true → c = ' '
  fits : text.IsChain Fits

section Characters

variable {left right c : Char}

theorem fits_space (hb : isBlank left = false) (ho : left ≠ '(') : Fits left ' ' where
  single h := by simp [hb] at h
  behindOpen h := absurd h ho
  beforeClose h := absurd h (by decide)
  beforeSign h := by simp [isInfix_space] at h
  behindSign _ := .inl rfl
  beforeOpen h := absurd h (by decide)
  behindClose _ := .inl rfl

/-- What is no blank and closes nothing may stand behind a space. -/
theorem space_fits (hb : isBlank right = false) (hc : right ≠ ')') : Fits ' ' right where
  single _ := hb
  behindOpen _ := hb
  beforeClose h := absurd h hc
  beforeSign _ := .inl rfl
  behindSign h := by simp [isInfix_space] at h
  beforeOpen _ := .inl rfl
  behindClose h := absurd h (by decide)

theorem open_fits (hb : isBlank right = false) : Fits '(' right where
  single _ := hb
  behindOpen _ := hb
  beforeClose _ := isBlank_open
  beforeSign _ := .inr rfl
  behindSign h := by simp [isInfix_open] at h
  beforeOpen _ := .inr rfl
  behindClose h := absurd h (by decide)

theorem fits_close (hb : isBlank left = false) : Fits left ')' where
  single h := by simp [hb] at h
  behindOpen _ := isBlank_close
  beforeClose _ := hb
  beforeSign h := by simp [isInfix_close] at h
  behindSign _ := .inr rfl
  beforeOpen h := absurd h (by decide)
  behindClose _ := .inr rfl

theorem fits_plain (h : Plain right) (hs : isInfix left = false) (hc : left ≠ ')') :
    Fits left right where
  single _ := h.blank
  behindOpen _ := h.blank
  beforeClose hr := absurd hr h.closes
  beforeSign hr := by simp [h.sign] at hr
  behindSign hl := by simp [hs] at hl
  beforeOpen hr := absurd hr h.opens
  behindClose hl := absurd hl hc

end Characters

variable {written front text : List Char} {c : Char}

/-- What has been written, backwards, is spaced but for a space at its end. -/
structure Kept (written : List Char) : Prop where
  fits : written.IsChain fun right left => Fits left right
  blank : ∀ c ∈ written, isBlank c = true → c = ' '
  first : ∀ c ∈ written.getLast?, isBlank c = false

theorem Kept.push (h : Kept written) (hfits : ∀ last ∈ written.head?, Fits last c)
    (hb : isBlank c = true → c = ' ') (hfirst : written = [] → isBlank c = false) :
    Kept (c :: written) := by
  refine ⟨List.isChain_cons.mpr ⟨hfits, h.fits⟩, List.forall_mem_cons.mpr ⟨hb, h.blank⟩, ?_⟩
  cases written with
  | nil =>
      rintro first ⟨⟩
      exact hfirst rfl
  | cons last written =>
      rw [List.getLast?_cons_cons]
      exact h.first

theorem Kept.suffix (h : Kept written) (hs : front <:+ written) : Kept front := by
  refine ⟨h.fits.suffix hs, fun c hm => h.blank c (hs.subset hm), ?_⟩
  obtain ⟨behind, rfl⟩ := hs
  intro c hc
  have hne : front ≠ [] := by
    rintro rfl
    cases hc
  exact h.first c (by rwa [List.getLast?_append_of_ne_nil _ hne])

theorem Kept.isBlank_head (h : Kept written) {last : Char} (hl : last ∈ written.head?)
    (hs : last ≠ ' ') : isBlank last = false := by
  rw [← Bool.not_eq_true]
  exact fun hb => hs (h.blank last (List.mem_of_mem_head? hl) hb)

theorem kept_gap (h : Kept written) : Kept (gap written) := by
  unfold gap
  split
  · rename_i hw
    cases written with
    | nil => cases hw
    | cons last written =>
        simp only [wantsGap, Bool.and_eq_true, decide_eq_true_eq] at hw
        refine h.push ?_ (fun _ => rfl) (fun hn => absurd hn (List.cons_ne_nil _ _))
        rintro other ⟨⟩
        exact fits_space (h.isBlank_head rfl hw.1) hw.2
  · exact h

/-- A gap ends in something that a sign and an opening parenthesis may follow. -/
theorem fits_of_gap (hb : isBlank c = false) (hc : c ≠ ')') {last : Char}
    (hl : last ∈ (gap written).head?) : Fits last c := by
  have hlast : last = ' ' ∨ last = '(' := by
    unfold gap at hl
    split at hl
    · cases hl
      exact .inl rfl
    · rename_i hw
      obtain ⟨front, rfl⟩ := List.head?_eq_some_iff.mp hl
      simp only [wantsGap, Bool.and_eq_true, decide_eq_true_eq, not_and, not_not] at hw
      exact or_iff_not_imp_left.mpr hw
  rcases hlast with rfl | rfl
  · exact space_fits hb hc
  · exact open_fits hb

/-- A character is written next to one that it may stand next to, and a sign is not the last. -/
theorem kept_write (h : Kept written) (hs : ∀ last ∈ written.head?, isInfix last = false)
    (c : Char) : Kept (write written c) ∧ ∀ last ∈ (write written c).head?, isInfix last = false := by
  rcases cases_char c with hc | rfl | rfl | hc | hc
  · have hb := isBlank_of_isInfix hc
    have ho : c ≠ '(' := ne_of_apply_ne isInfix (by rw [hc, isInfix_open]; decide)
    have hcl : c ≠ ')' := ne_of_apply_ne isInfix (by rw [hc, isInfix_close]; decide)
    have hsign : Kept (c :: gap written) :=
      (kept_gap h).push (fun last hl => fits_of_gap hb hcl hl) (by simp [hb]) fun _ => hb
    rw [write_sign hc]
    constructor
    · refine hsign.push ?_ (fun _ => rfl) nofun
      rintro last ⟨⟩
      exact fits_space hb ho
    · rintro last ⟨⟩
      exact isInfix_space
  · rw [write_open]
    constructor
    · exact (kept_gap h).push (fun last hl => fits_of_gap isBlank_open (by decide) hl) (by decide)
        fun _ => isBlank_open
    · rintro last ⟨⟩
      exact isInfix_open
  · have hdrop := h.suffix (List.dropWhile_suffix (· = ' '))
    rw [write_close]
    constructor
    · refine hdrop.push (fun last hl => ?_) (by decide) fun _ => isBlank_close
      exact fits_close (hdrop.isBlank_head hl (by simpa using eq_false_of_head?_dropWhile hl))
    · rintro last ⟨⟩
      exact isInfix_close
  · rw [write_blank hc]
    refine ⟨kept_gap h, ?_⟩
    unfold gap
    split
    · rintro last ⟨⟩
      exact isInfix_space
    · exact hs
  · rw [write_plain hc]
    split
    · rename_i hl
      have hspace : Kept (' ' :: written) := by
        refine h.push ?_ (fun _ => rfl) ?_
        · intro last hlast
          rw [Option.mem_def, hl] at hlast
          cases hlast
          exact fits_space isBlank_close (by decide)
        · rintro rfl
          cases hl
      constructor
      · refine hspace.push ?_ (by simp [hc.blank]) fun _ => hc.blank
        rintro last ⟨⟩
        exact space_fits hc.blank hc.closes
      · rintro last ⟨⟩
        exact hc.sign
    · rename_i hl
      constructor
      · refine h.push (fun last hlast => ?_) (by simp [hc.blank]) fun _ => hc.blank
        exact fits_plain hc (hs last hlast) fun h' => hl (h' ▸ hlast)
      · rintro last ⟨⟩
        exact hc.sign

theorem kept_foldl_write (h : Kept written) (hs : ∀ last ∈ written.head?, isInfix last = false)
    (text : List Char) : Kept (text.foldl write written) := by
  induction text generalizing written with
  | nil => exact h
  | cons c text ih =>
      obtain ⟨hk, hs⟩ := kept_write h hs c
      exact ih hk hs

theorem kept_written (text : List Char) : Kept (text.foldl write []) :=
  kept_foldl_write ⟨.nil, nofun, nofun⟩ nofun text

/-- At the end nothing is left to do but to take a space away. -/
theorem respaceChars_eq (text : List Char) :
    respaceChars text = ((text.foldl write []).dropWhile isBlank).reverse := by
  have hk := kept_written text
  have hfirst : ∀ c ∈ (text.foldl write []).reverse.head?, isBlank c = false := by
    rw [List.head?_reverse]
    exact hk.first
  rw [respaceChars, Text.words, Text.unwords_wordsFrom (List.forall_mem_nil _) (fun _ => hfirst)
    (fun c hc => hk.blank c (List.mem_reverse.mp hc))
    ((List.isChain_reverse.mpr hk.fits).imp fun _ _ hf => hf.single), List.reverse_nil,
    List.nil_append, Text.trimEnd, List.reverse_reverse]

theorem spaced_respaceChars (text : List Char) : Spaced (respaceChars text) := by
  have hk := (kept_written text).suffix (List.dropWhile_suffix isBlank)
  rw [respaceChars_eq]
  refine ⟨?_, ?_, fun c hc => hk.blank c (List.mem_reverse.mp hc),
    List.isChain_reverse.mpr hk.fits⟩
  · rw [List.head?_reverse]
    exact hk.first
  · rw [List.getLast?_reverse]
    exact fun c hc => eq_false_of_head?_dropWhile hc

theorem Spaced.kept (h : Spaced text) : Kept text.reverse where
  fits := List.isChain_reverse.mp (by rw [List.reverse_reverse]; exact h.fits)
  blank c hc := h.blank c (List.mem_reverse.mp hc)
  first := by
    rw [List.getLast?_reverse]
    exact h.first

/-- What is written of a spaced text, backwards: a sign already has a space behind it. -/
def padded (front : List Char) : List Char :=
  if front.head?.any isInfix then ' ' :: front else front

theorem padded_cons_of_isInfix (h : isInfix c = true) : padded (c :: front) = ' ' :: c :: front :=
  if_pos h

theorem padded_of_not_isInfix (h : ∀ last ∈ front.head?, isInfix last = false) :
    padded front = front := by
  refine if_neg ?_
  cases front with
  | nil => nofun
  | cons last front => simp [h last rfl]

theorem padded_cons_of_not_isInfix (h : isInfix c = false) : padded (c :: front) = c :: front :=
  padded_of_not_isInfix (by rintro last ⟨⟩; exact h)

theorem gap_padded_of_open (h : ∀ last ∈ front.head?, last = ' ' ∨ last = '(') :
    gap (padded front) = front := by
  cases front with
  | nil => rfl
  | cons last front =>
      rcases h last rfl with rfl | rfl
      · rw [padded_cons_of_not_isInfix isInfix_space]
        rfl
      · rw [padded_cons_of_not_isInfix isInfix_open]
        rfl

/-- A character that fits is written as it is. -/
theorem write_padded (hfits : ∀ last ∈ front.head?, Fits last c)
    (hb : isBlank c = true → c = ' ') (hfirst : front = [] → isBlank c = false) :
    write (padded front) c = padded (c :: front) := by
  rcases cases_char c with hc | rfl | rfl | hc | hc
  · rw [write_sign hc, gap_padded_of_open fun last hl => (hfits last hl).beforeSign hc,
      padded_cons_of_isInfix hc]
  · rw [write_open, gap_padded_of_open fun last hl => (hfits last hl).beforeOpen rfl,
      padded_cons_of_not_isInfix isInfix_open]
  · have hdrop : (padded front).dropWhile (· = ' ') = front := by
      cases front with
      | nil => rfl
      | cons last front =>
          have hne : last ≠ ' ' := by
            rintro rfl
            exact absurd ((hfits ' ' rfl).beforeClose rfl) (by decide)
          by_cases hs : isInfix last = true
          · rw [padded_cons_of_isInfix hs]
            simp [hne]
          · rw [padded_cons_of_not_isInfix (by simpa using hs)]
            simp [hne]
    rw [write_close, hdrop, padded_cons_of_not_isInfix isInfix_close]
  · obtain rfl := hb hc
    rw [write_blank hc, padded_cons_of_not_isInfix isInfix_space]
    cases front with
    | nil => exact absurd (hfirst rfl) (by decide)
    | cons last front =>
        have hne : last ≠ ' ' := by
          rintro rfl
          exact absurd ((hfits ' ' rfl).single hc) (by decide)
        have ho : last ≠ '(' := by
          rintro rfl
          exact absurd ((hfits '(' rfl).behindOpen rfl) (by decide)
        by_cases hs : isInfix last = true
        · rw [padded_cons_of_isInfix hs]
          rfl
        · rw [padded_cons_of_not_isInfix (by simpa using hs)]
          simp [gap, wantsGap, hne, ho]
  · have hspace : c ≠ ' ' ∧ c ≠ ')' := by
      refine ⟨?_, hc.closes⟩
      rintro rfl
      exact absurd hc.blank (by decide)
    have hs : ∀ last ∈ front.head?, isInfix last = false := by
      intro last hl
      rw [← Bool.not_eq_true]
      exact fun h => ((hfits last hl).behindSign h).elim hspace.1 hspace.2
    have hclose : front.head? ≠ some ')' :=
      fun hl => ((hfits ')' hl).behindClose rfl).elim hspace.1 hspace.2
    rw [padded_of_not_isInfix hs, write_plain hc, if_neg hclose,
      padded_cons_of_not_isInfix hc.sign]

theorem foldl_write_of_kept (h : Kept front) : front.reverse.foldl write [] = padded front := by
  induction front with
  | nil => rfl
  | cons c front ih =>
      obtain ⟨hfits, _⟩ := List.isChain_cons.mp h.fits
      have hfront := h.suffix (List.suffix_cons c front)
      rw [List.reverse_cons, List.foldl_append, ih hfront, List.foldl_cons, List.foldl_nil]
      refine write_padded hfits (h.blank c List.mem_cons_self) ?_
      rintro rfl
      exact h.first c rfl

/-- A spaced text is respaced to itself. -/
theorem Spaced.respaceChars_eq_self (h : Spaced text) : respaceChars text = text := by
  have hwritten := foldl_write_of_kept h.kept
  have hlast : text.reverse.dropWhile isBlank = text.reverse := by
    rw [Text.dropWhile_eq_self_iff, List.head?_reverse]
    exact h.last
  have hdrop : (padded text.reverse).dropWhile isBlank = text.reverse := by
    unfold padded
    split
    · rw [List.dropWhile_cons_of_pos isBlank_space, hlast]
    · exact hlast
  rw [List.reverse_reverse] at hwritten
  rw [respaceChars_eq, hwritten, hdrop, List.reverse_reverse]

end Respacing

open Respacing

/-- A respaced expression has single spaces in the places where a space may stand, and signs
and parentheses where they have the spaces they need. It is respaced to itself. -/
theorem respace_spaced (expression : String) :
    Spaced (respace expression).toList ∧ respace (respace expression) = respace expression := by
  have hspaced : Spaced (respace expression).toList := by
    rw [respace, String.toList_ofList]
    exact spaced_respaceChars expression.toList
  refine ⟨hspaced, ?_⟩
  calc
    respace (respace expression) = String.ofList (respace expression).toList := by
      rw [respace, hspaced.respaceChars_eq_self]
    _ = respace expression := String.ofList_toList

end Reckoner
