import Reckoner.Text.Words
import Mathlib.Data.List.Basic
import Mathlib.Data.List.Chain
import Mathlib.Data.List.TakeWhile

/-! # Words and trimmed texts

A blank separates the words in front of it from those behind it, and is in no
word whatever its case. A text is trimmed when it neither begins nor ends with a
blank. -/

namespace Reckoner.Text

open Unicode

variable {c : Char} {text : List Char}

theorem isBlank_space : isBlank ' ' = true := by decide

theorem toLower_of_isBlank (hc : isBlank c = true) : c.toLower = c := by
  have hd : ∀ range ∈ blank, range.2 < 'A'.toNat ∨ 'Z'.toNat < range.1 := by decide
  obtain ⟨range, hm, hl, hr⟩ := Ranges.containsCode_sound hc
  have hcode : c.toNat < 'A'.toNat ∨ 'Z'.toNat < c.toNat := by
    rcases hd range hm with hlt | hlt <;> omega
  refine dif_neg ?_
  rintro ⟨hA, hZ⟩
  rcases hcode with hlt | hlt
  · exact absurd (Nat.lt_of_lt_of_le hlt hA) (Nat.lt_irrefl _)
  · exact absurd (Nat.lt_of_lt_of_le hlt hZ) (Nat.lt_irrefl _)

/-- A text with a blank is not the same as one without, in any case. -/
theorem sameIgnoringCase_of_blank {other : List Char} (hm : c ∈ text) (hc : isBlank c = true)
    (ho : (other.map Char.toLower).any isBlank = false) :
    sameIgnoringCase text other = false := by
  rw [← Bool.not_eq_true]
  intro h
  have hmap : text.map Char.toLower = other.map Char.toLower := eq_of_beq h
  have hlower : (other.map Char.toLower).any isBlank = true := by
    rw [← hmap]
    exact List.any_eq_true.mpr ⟨c, toLower_of_isBlank hc ▸ List.mem_map_of_mem hm, hc⟩
  rw [ho] at hlower
  cases hlower

theorem wordsFrom_append_blank (hc : isBlank c = true) (current front back : List Char) :
    wordsFrom current (front ++ c :: back) = wordsFrom current front ++ words back := by
  induction front generalizing current with
  | nil =>
      simp only [List.nil_append, wordsFrom, if_pos hc]
      split <;> rfl
  | cons first front ih =>
      rw [List.cons_append, wordsFrom, wordsFrom, ih, ih]
      split
      · split <;> rfl
      · rfl

/-- A blank stands between words. -/
theorem words_append_blank (hc : isBlank c = true) (front back : List Char) :
    words (front ++ c :: back) = words front ++ words back :=
  wordsFrom_append_blank hc [] front back

theorem wordsFrom_solid (h : ∀ c ∈ text, isBlank c = false) {current : List Char}
    (hne : current ≠ []) : wordsFrom current text = [current.reverse ++ text] := by
  induction text generalizing current with
  | nil => simp [wordsFrom, hne]
  | cons c text ih =>
      obtain ⟨hc, ht⟩ := List.forall_mem_cons.mp h
      rw [wordsFrom, if_neg (by simp [hc]), ih ht (List.cons_ne_nil _ _)]
      simp

/-- A text without a blank is one word. -/
theorem words_solid (h : ∀ c ∈ text, isBlank c = false) (hne : text ≠ []) :
    words text = [text] := by
  obtain ⟨c, rest, rfl⟩ := List.exists_cons_of_ne_nil hne
  obtain ⟨hc, hr⟩ := List.forall_mem_cons.mp h
  rw [words, wordsFrom, if_neg (by simp [hc]), wordsFrom_solid hr (List.cons_ne_nil _ _)]
  rfl

theorem words_ne_nil (hm : c ∈ text) (hc : isBlank c = false) : words text ≠ [] := by
  intro hn
  have hs : c ∈ (words text).flatten := by
    rw [flatten_words]
    exact List.mem_filter.mpr ⟨hm, by rw [hc]; rfl⟩
  rw [hn] at hs
  cases hs

theorem dropWhile_eq_self_iff : text.dropWhile isBlank = text ↔
    ∀ c ∈ text.head?, isBlank c = false := by
  cases text with
  | nil => simp
  | cons c text =>
      constructor
      · intro h other hm
        obtain rfl : c = other := by simpa using hm
        rw [← Bool.not_eq_true]
        intro hc
        rw [List.dropWhile_cons_of_pos hc] at h
        have hle := (List.dropWhile_suffix isBlank (l := text)).length_le
        rw [h, List.length_cons] at hle
        omega
      · intro h
        exact List.dropWhile_cons_of_neg (by simp [h c rfl])

theorem trimEnd_eq_self_iff : trimEnd text = text ↔ ∀ c ∈ text.getLast?, isBlank c = false := by
  rw [trimEnd, List.reverse_eq_iff, dropWhile_eq_self_iff, List.head?_reverse]

theorem trimEnd_isPrefix (text : List Char) : trimEnd text <+: text := by
  rw [trimEnd, ← List.reverse_suffix, List.reverse_reverse]
  exact List.dropWhile_suffix _

theorem trim_eq_self_iff : trim text = text ↔
    (∀ c ∈ text.head?, isBlank c = false) ∧ ∀ c ∈ text.getLast?, isBlank c = false := by
  constructor
  · intro h
    have hstart : trimStart text = text := by
      refine (List.dropWhile_suffix isBlank).eq_of_length_le ?_
      have hle := (trimEnd_isPrefix (trimStart text)).length_le
      rwa [show trimEnd (trimStart text) = text from h] at hle
    refine ⟨dropWhile_eq_self_iff.mp hstart, trimEnd_eq_self_iff.mp ?_⟩
    rw [trim, hstart] at h
    exact h
  · rintro ⟨hhead, hlast⟩
    rw [trim, trimStart, dropWhile_eq_self_iff.mpr hhead, trimEnd_eq_self_iff.mpr hlast]

/-- A blank at the start is trimmed. -/
theorem trim_blank_cons (hc : isBlank c = true) (text : List Char) :
    trim (c :: text) = trim text := by
  rw [trim, trimStart, List.dropWhile_cons_of_pos hc, trim, trimStart]

theorem trimEnd_append_blank (hc : isBlank c = true) (text : List Char) :
    trimEnd (text ++ [c]) = trimEnd text := by
  rw [trimEnd, List.reverse_concat, List.dropWhile_cons_of_pos hc, trimEnd]

/-- A blank at the end is trimmed. -/
theorem trim_append_blank (hc : isBlank c = true) (text : List Char) :
    trim (text ++ [c]) = trim text := by
  rw [trim, trimStart, List.dropWhile_append]
  split
  · rename_i hn
    rw [List.dropWhile_cons_of_pos hc, List.dropWhile_nil, trim, trimStart, List.isEmpty_iff.mp hn]
  · rw [trimEnd_append_blank hc, trim, trimStart]

theorem trimEnd_append_of_solid (hm : c ∈ text) (hc : isBlank c = false) (front : List Char) :
    trimEnd (front ++ text) = front ++ trimEnd text := by
  have hne : ¬ (text.reverse.dropWhile isBlank).isEmpty = true := by
    rw [List.isEmpty_iff, List.dropWhile_eq_nil_iff]
    intro h
    rw [h c (List.mem_reverse.mpr hm)] at hc
    cases hc
  rw [trimEnd, List.reverse_append, List.dropWhile_append, if_neg hne, List.reverse_append,
    List.reverse_reverse, trimEnd]

/-- A trimmed text stands in one piece in the text it comes from. -/
theorem trim_infix (text : List Char) : trim text <:+: text :=
  (trimEnd_isPrefix (trimStart text)).isInfix.trans (List.dropWhile_suffix _).isInfix

theorem isBlank_of_mem_head?_trimStart (hm : c ∈ (trimStart text).head?) : isBlank c = false := by
  have h := List.head?_dropWhile_not isBlank text
  rw [show text.dropWhile isBlank = trimStart text from rfl, Option.mem_def.mp hm] at h
  simpa using h

theorem isBlank_of_mem_getLast?_trimEnd (hm : c ∈ (trimEnd text).getLast?) : isBlank c = false := by
  rw [trimEnd, List.getLast?_reverse] at hm
  exact isBlank_of_mem_head?_trimStart hm

/-- A trimmed text has nothing left to trim. -/
theorem trim_trim (text : List Char) : trim (trim text) = trim text := by
  refine trim_eq_self_iff.mpr ⟨fun c hm => ?_, fun c hm => isBlank_of_mem_getLast?_trimEnd hm⟩
  obtain ⟨rest, hrest⟩ := trimEnd_isPrefix (trimStart text)
  have hstart : c ∈ (trimStart text).head? := by
    rw [← hrest]
    exact List.mem_head?_append_of_mem_head? hm
  exact isBlank_of_mem_head?_trimStart hstart

theorem words_trimStart (text : List Char) : words (trimStart text) = words text := by
  induction text with
  | nil => rfl
  | cons c text ih =>
      rw [trimStart, List.dropWhile_cons]
      split
      · rename_i hc
        rw [← List.nil_append (c :: text), words_append_blank hc]
        exact ih
      · rfl

theorem words_trimEnd (text : List Char) : words (trimEnd text) = words text := by
  induction text using List.reverseRecOn with
  | nil => rfl
  | append_singleton text c ih =>
      cases hc : isBlank c with
      | true =>
          rw [trimEnd_append_blank hc, ih, words_append_blank hc]
          exact (List.append_nil _).symm
      | false => rw [trimEnd_eq_self_iff.mpr (by simp [hc])]

/-- Trimming takes no word away. -/
theorem words_trim (text : List Char) : words (trim text) = words text :=
  (words_trimEnd _).trans (words_trimStart text)

/-- A word and what a blank parts from it. -/
theorem words_solid_append {word rest : List Char} (hword : ∀ c ∈ word, isBlank c = false)
    (hne : word ≠ []) (hrest : ∀ c ∈ rest.head?, isBlank c = true) :
    words (word ++ rest) = word :: words rest := by
  cases rest with
  | nil => rw [List.append_nil, words_solid hword hne]; rfl
  | cons c rest =>
      have hc : isBlank c = true := hrest c rfl
      rw [words_append_blank hc, words_solid hword hne, ← List.nil_append (c :: rest),
        words_append_blank hc]
      rfl

theorem words_append_solid {word front : List Char} (hword : ∀ c ∈ word, isBlank c = false)
    (hne : word ≠ []) (hfront : ∀ c ∈ front.getLast?, isBlank c = true) :
    words (front ++ word) = words front ++ [word] := by
  rcases List.eq_nil_or_concat front with rfl | ⟨before, c, rfl⟩
  · exact words_solid hword hne
  · have hc : isBlank c = true := hfront c (by simp)
    rw [List.concat_eq_append, List.append_assoc, List.singleton_append, words_append_blank hc,
      words_append_blank hc, words_solid hword hne]
    simp [words, wordsFrom]

/-- A text begins with a run without blanks, up to its first blank. -/
theorem exists_solid_front (text : List Char) :
    ∃ front rest, text = front ++ rest ∧ (∀ c ∈ front, isBlank c = false) ∧
      ∀ c ∈ rest.head?, isBlank c = true := by
  refine ⟨_, _, (List.takeWhile_append_dropWhile (p := (!isBlank ·))).symm, fun c hc => ?_,
    fun c hc => ?_⟩
  · simpa using List.mem_takeWhile_imp hc
  · have h := List.head?_dropWhile_not (!isBlank ·) text
    rw [Option.mem_def.mp hc] at h
    simpa using h

/-- The first word of a text without a blank in front begins it, up to a blank or the end. -/
theorem exists_append_of_head?_words (hhead : ∀ c ∈ text.head?, isBlank c = false)
    {word : List Char} (hm : word ∈ (words text).head?) :
    ∃ rest, text = word ++ rest ∧ ∀ c ∈ rest.head?, isBlank c = true := by
  obtain ⟨front, rest, rfl, hsolid, hrest⟩ := exists_solid_front text
  have hne : front ≠ [] := by
    rintro rfl
    cases rest with
    | nil => cases hm
    | cons c rest => exact absurd (hrest c rfl) (by simp [hhead c rfl])
  rw [words_solid_append hsolid hne hrest] at hm
  obtain rfl : front = word := Option.some_inj.mp hm
  exact ⟨rest, rfl, hrest⟩

/-- The last word of a text without a blank behind ends it. -/
theorem exists_append_of_getLast?_words (hlast : ∀ c ∈ text.getLast?, isBlank c = false)
    {word : List Char} (hm : word ∈ (words text).getLast?) :
    ∃ front, text = front ++ word ∧ ∀ c ∈ front.getLast?, isBlank c = true := by
  obtain ⟨back, front, hreverse, hsolid, hfront⟩ := exists_solid_front text.reverse
  obtain rfl : text = front.reverse ++ back.reverse := by
    rw [← List.reverse_append, ← hreverse, List.reverse_reverse]
  have hstop : ∀ c ∈ front.reverse.getLast?, isBlank c = true := by
    rwa [List.getLast?_reverse]
  have hne : back.reverse ≠ [] := by
    intro hnil
    rw [hnil, List.append_nil] at hm hlast
    rcases List.eq_nil_or_concat front.reverse with hempty | ⟨before, c, hconcat⟩
    · rw [hempty] at hm
      cases hm
    · have hc : c ∈ front.reverse.getLast? := by simp [hconcat]
      exact absurd (hstop c hc) (by simp [hlast c hc])
  rw [words_append_solid (by simpa using hsolid) hne hstop, List.getLast?_concat] at hm
  obtain rfl : back.reverse = word := Option.some_inj.mp hm
  exact ⟨front.reverse, rfl, hstop⟩

theorem unwords_cons (word : List Char) {others : List (List Char)} (hne : others ≠ []) :
    unwords (word :: others) = word ++ ' ' :: unwords others := by
  rw [unwords, List.intercalate_cons_of_ne_nil hne, List.append_assoc]
  rfl

/-- The words of a text without doubled spaces are joined to this text, but for a space at
its end. -/
theorem unwords_wordsFrom {current : List Char} (hcurrent : ∀ c ∈ current, isBlank c = false)
    (hfirst : current = [] → ∀ c ∈ text.head?, isBlank c = false)
    (hblank : ∀ c ∈ text, isBlank c = true → c = ' ')
    (hsingle : text.IsChain fun left right => isBlank left = true → isBlank right = false) :
    unwords (wordsFrom current text) = trimEnd (current.reverse ++ text) := by
  have hsolid (text : List Char) (h : ∀ c ∈ text, isBlank c = false) : trimEnd text = text :=
    trimEnd_eq_self_iff.mpr fun c hc => h c (List.mem_of_getLast? hc)
  -- A word that has begun ends at the first space, and the next one begins right behind it.
  induction text generalizing current with
  | nil =>
      rw [List.append_nil, hsolid _ (by simpa using hcurrent), wordsFrom]
      split
      · rename_i hn
        rw [List.isEmpty_iff.mp hn]
        rfl
      · rw [unwords, List.intercalate_singleton]
  | cons c text ih =>
      obtain ⟨hc, htext⟩ := List.forall_mem_cons.mp hblank
      obtain ⟨hnext, hchain⟩ := List.isChain_cons.mp hsingle
      rw [wordsFrom]
      split
      · rename_i hb
        obtain rfl := hc hb
        have hne : ¬ current.isEmpty = true := by
          rw [List.isEmpty_iff]
          intro hn
          have hfalse := hfirst hn ' ' rfl
          rw [hb] at hfalse
          cases hfalse
        rw [if_neg hne]
        cases text with
        | nil =>
            rw [trimEnd_append_blank hb, hsolid _ (by simpa using hcurrent)]
            exact List.intercalate_singleton
        | cons next text =>
            have hn : isBlank next = false := hnext next rfl hb
            have hwords : wordsFrom [] (next :: text) ≠ [] := words_ne_nil List.mem_cons_self hn
            have hsplit : current.reverse ++ ' ' :: next :: text =
                (current.reverse ++ [' ']) ++ next :: text := by simp
            rw [unwords_cons _ hwords,
              ih (List.forall_mem_nil _) (fun _ c hc => hnext c hc hb) htext hchain, hsplit,
              trimEnd_append_of_solid List.mem_cons_self hn (current.reverse ++ [' '])]
            simp
      · rename_i hb
        rw [ih (List.forall_mem_cons.mpr ⟨by simpa using hb, hcurrent⟩)
            (fun h => absurd h (List.cons_ne_nil _ _)) htext hchain,
          List.reverse_cons, List.append_assoc, List.singleton_append]

end Reckoner.Text
