import Mathlib.Data.List.Basic
import Reckoner.Highlight

/-! # What highlighting keeps

The spans of an expression are the expression, cut into pieces. Their styles set a
background only where the style below does. -/

namespace Reckoner.Highlight

open Terminal

variable {vars : Variables} {base : Style} {kind : Kind} {current text : List Char}

theorem flatMap_text_flush (vars : Variables) (base : Style) (kind : Kind) (current : List Char) :
    (flush vars base kind current).flatMap Span.text = current := by
  cases current <;> simp [flush]

/-- The spans of the rest follow the word or number begun. -/
theorem flatMap_text_spansFrom (vars : Variables) (base : Style) (kind : Kind)
    (current text : List Char) :
    (spansFrom vars base kind current text).flatMap Span.text = current.reverse ++ text := by
  induction text generalizing kind current with
  | nil => rw [spansFrom, flatMap_text_flush, List.append_nil]
  | cons c rest ih =>
      simp only [spansFrom]
      split_ifs
      · rw [List.flatMap_append, flatMap_text_flush, List.flatMap_cons, ih]
        rfl
      · rw [ih, List.reverse_cons, List.append_assoc]
        rfl
      · rw [List.flatMap_append, flatMap_text_flush, ih]
        rfl

/-- Nothing is lost between spans. -/
theorem flatMap_text_spans (text : List Char) (vars : Variables) (base : Style) :
    (spans text vars base).flatMap Span.text = text :=
  flatMap_text_spansFrom vars base .other [] text

/-- A span is a single character, or a word or number that has been read. -/
theorem exists_of_mem_spansFrom {span : Span} (h : span ∈ spansFrom vars base kind current text) :
    (∃ c, span = ⟨[c], signStyle c base⟩) ∨ ∃ kind run, span ∈ flush vars base kind run := by
  induction text generalizing kind current with
  | nil => exact .inr ⟨_, _, h⟩
  | cons c rest ih =>
      simp only [spansFrom] at h
      split_ifs at h
      · rcases List.mem_append.mp h with hflush | hrest
        · exact .inr ⟨_, _, hflush⟩
        · rcases List.mem_cons.mp hrest with rfl | hrest
          · exact .inl ⟨c, rfl⟩
          · exact ih hrest
      · exact ih h
      · rcases List.mem_append.mp h with hflush | hrest
        · exact .inr ⟨_, _, hflush⟩
        · exact ih hrest

theorem of_mem_flush {span : Span} (h : span ∈ flush vars base kind current) :
    span.text ≠ [] ∧ ∃ word, span.style = nameStyle word vars base ∨ span.style = numberStyle ∨
      span.style = base := by
  unfold flush at h
  split at h
  · cases h
  · rename_i hne
    rw [List.mem_singleton.mp h]
    refine ⟨fun hn => hne (List.isEmpty_iff.mpr hn), String.ofList current, ?_⟩
    cases kind with
    | word => exact .inl rfl
    | number => exact .inr (.inl rfl)
    | other => exact .inr (.inr rfl)

section Background

variable (hbase : base.background? = none)

include hbase

theorem background_nameStyle (word : String) (vars : Variables) :
    (nameStyle word vars base).background? = none := by
  unfold nameStyle
  split
  · split <;> rfl
  · exact hbase

theorem background_signStyle (c : Char) : (signStyle c base).background? = none := by
  unfold signStyle
  split_ifs <;> [rfl; rfl; exact hbase]

theorem background_of_mem_spans {span : Span} (h : span ∈ spans text vars base) :
    span.style.background? = none := by
  rcases exists_of_mem_spansFrom h with ⟨c, rfl⟩ | ⟨kind, run, hflush⟩
  · exact background_signStyle hbase c
  · obtain ⟨-, word, hstyle | hstyle | hstyle⟩ := of_mem_flush hflush
    · exact hstyle ▸ background_nameStyle hbase word vars
    · rw [hstyle]
      rfl
    · rw [hstyle, hbase]

end Background

end Reckoner.Highlight
