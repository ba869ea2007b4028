import Reckoner.Proofs.Highlight
import Reckoner.Proofs.Token.Lexeme

/-! # Names, numbers and signs in front of a text

Highlighting remembers the kind of the last character and the span begun so far. A span
ends in front of what does not go on with its kind, and what follows it is highlighted as
a text of its own. -/

namespace Reckoner.Highlight

open Terminal Unicode

variable {vars : Variables} {base : Style} {kind : Kind} {current run back text : List Char}

/-- The character goes on with a span of this kind. -/
def Kind.GoesOn : Kind → Char → Prop
  | .word, c => isAlphanumeric c = true
  | .number, c => c.isDigit = true ∨ c = '.'
  | .other, _ => False

/-- A span of this kind ends in front of the text. -/
def Kind.Ends (kind : Kind) (text : List Char) : Prop := ∀ c ∈ text.head?, ¬ kind.GoesOn c

theorem isAlphabetic_of_isDigit {c : Char} (h : c.isDigit = true ∨ c = '.') :
    isAlphabetic c = false := by
  rw [← Bool.not_eq_true]
  intro ha
  obtain ⟨hdigit, hpoint⟩ := isDigit_of_isAlphabetic ha
  rcases h with h | h
  · rw [hdigit] at h
    cases h
  · exact hpoint h

theorem Kind.not_goesOn_of_breaks {c : Char} (h : Breaks c) (kind : Kind) : ¬ kind.GoesOn c := by
  cases kind with
  | word => exact Bool.eq_false_iff.mp h.name
  | number => simp [GoesOn, h.digit, h.point]
  | other => exact id

theorem kindOf_of_breaks {c : Char} (h : Breaks c) : kindOf c .other = .other := by
  have hletter : isAlphabetic c = false := (Bool.or_eq_false_iff.mp h.name).1
  simp [kindOf, hletter, h.digit, h.point]

theorem kindOf_of_isAlphabetic {c : Char} (h : isAlphabetic c = true) (kind : Kind) :
    kindOf c kind = .word := by
  simp [kindOf, h]

theorem Kind.GoesOn.kindOf_eq {c : Char} (h : kind.GoesOn c) : kindOf c kind = kind := by
  cases kind with
  | word =>
      have ha : isAlphanumeric c = true := h
      simp [kindOf, ha]
  | number =>
      have hd : c.isDigit = true ∨ c = '.' := h
      simp [kindOf, isAlphabetic_of_isDigit hd, hd]
  | other => exact h.elim

theorem Kind.GoesOn.ne_other {c : Char} (h : kind.GoesOn c) : kind ≠ .other := by
  rintro rfl
  exact h

/-- A character that does not go on with a span is of the kind that it has by itself. -/
theorem kindOf_of_not_goesOn {c : Char} (h : ¬ kind.GoesOn c) :
    kindOf c kind = kindOf c .other ∧ (kindOf c kind = kind → kind = .other) := by
  cases kind with
  | word =>
      have ha : isAlphanumeric c = false := Bool.eq_false_iff.mpr h
      have hletter : isAlphabetic c = false := (Bool.or_eq_false_iff.mp ha).1
      constructor
      · simp [kindOf, ha]
      · intro hsame
        simp only [kindOf, ha, hletter, Bool.and_false, Bool.or_false, Bool.false_eq_true,
          if_false] at hsame
        split_ifs at hsame
  | number =>
      have hd : ¬ (c.isDigit = true ∨ c = '.') := h
      constructor
      · simp [kindOf]
      · simp only [kindOf]
        split_ifs <;> simp_all
  | other => exact ⟨rfl, fun _ => rfl⟩

/-- What goes on with a span belongs to it. -/
theorem spansFrom_run (h : ∀ c ∈ run, kind.GoesOn c) (vars : Variables) (base : Style)
    (current back : List Char) : spansFrom vars base kind current (run ++ back) =
      spansFrom vars base kind (run.reverse ++ current) back := by
  induction run generalizing current with
  | nil => rfl
  | cons c run ih =>
      obtain ⟨hc, hrun⟩ := List.forall_mem_cons.mp h
      simp only [List.cons_append, spansFrom, hc.kindOf_eq, if_neg hc.ne_other, if_true]
      rw [ih hrun, List.reverse_cons, List.append_assoc]
      rfl

/-- What does not go on with a span is highlighted as a text of its own. -/
theorem spansFrom_of_ends (h : kind.Ends text) (vars : Variables) (base : Style)
    (current : List Char) : spansFrom vars base kind current text =
      flush vars base kind current.reverse ++ spans text vars base := by
  cases text with
  | nil => simp [spansFrom, spans, flush]
  | cons c rest =>
      obtain ⟨hkind, hends⟩ := kindOf_of_not_goesOn (h c rfl)
      simp only [spans, spansFrom, ← hkind]
      by_cases hother : kindOf c kind = .other
      · simp [hother, flush]
      · have hnext : kindOf c kind ≠ kind := fun hsame => hother (hsame.trans (hends hsame))
        simp [hother, hnext, flush]

theorem spans_of_breaks {c : Char} (h : Breaks c) (vars : Variables) (base : Style)
    (back : List Char) :
    spans (c :: back) vars base = ⟨[c], signStyle c base⟩ :: spans back vars base := by
  simp [spans, spansFrom, kindOf_of_breaks h, flush]

/-- A span is begun by a character that has a kind by itself. -/
theorem spans_begin {first : Char} (hfirst : kindOf first .other = kind) (hkind : kind ≠ .other)
    (hrun : ∀ c ∈ run, kind.GoesOn c) (hends : kind.Ends back) (vars : Variables) (base : Style) :
    spans (first :: run ++ back) vars base =
      flush vars base kind (first :: run) ++ spans back vars base := by
  have hstart : spans (first :: run ++ back) vars base =
      spansFrom vars base kind [first] (run ++ back) := by
    simp [spans, spansFrom, hfirst, hkind, flush]
  rw [hstart, spansFrom_run hrun, spansFrom_of_ends hends]
  simp

theorem spans_name {first : Char} (hfirst : isAlphabetic first = true)
    (hrun : ∀ c ∈ run, isAlphanumeric c = true) (hends : Kind.word.Ends back)
    (vars : Variables) (base : Style) : spans (first :: run ++ back) vars base =
      ⟨first :: run, nameStyle (String.ofList (first :: run)) vars base⟩ ::
        spans back vars base :=
  spans_begin (kindOf_of_isAlphabetic hfirst _) nofun hrun hends vars base

theorem spans_number {digits : List Char} (hne : digits ≠ [])
    (hdigits : ∀ c ∈ digits, Kind.number.GoesOn c) (hends : Kind.number.Ends back)
    (vars : Variables) (base : Style) :
    spans (digits ++ back) vars base = ⟨digits, numberStyle⟩ :: spans back vars base := by
  obtain ⟨first, run, rfl⟩ := List.exists_cons_of_ne_nil hne
  obtain ⟨hfirst, hrun⟩ := List.forall_mem_cons.mp hdigits
  have hkind : kindOf first .other = .number := by
    have hd : first.isDigit = true ∨ first = '.' := hfirst
    simp [kindOf, isAlphabetic_of_isDigit hd, hd]
  exact spans_begin hkind nofun hrun hends vars base

/-- No span is empty. -/
theorem text_ne_nil_of_mem_spans {span : Span} (h : span ∈ spans text vars base) :
    span.text ≠ [] := by
  rcases exists_of_mem_spansFrom h with ⟨c, rfl⟩ | ⟨kind, run, hflush⟩
  · exact List.cons_ne_nil c []
  · exact (of_mem_flush hflush).1

end Reckoner.Highlight
