import Mathlib.Data.List.Induction
import Reckoner.Proofs.Highlight.Pieces

/-! # The style of each character

A character of an expression is highlighted by the name in which it stands, or else by
itself. So a text that is cut keeps its styles, unless a name is cut: a number and a sign
show the same wherever the text around them ends. -/

namespace Reckoner.Highlight

open Terminal Unicode

variable {vars : Variables} {base : Style} {kind : Kind}
  {current text front back name run : List Char}

/-- The styles of the characters of some spans. -/
def styles (spans : List Span) : List Style :=
  spans.flatMap fun span => span.text.map fun _ => span.style

/-- The text ends with a letter and what goes on with its name. -/
def EndsInName (text : List Char) : Prop :=
  ∃ before first rest, text = before ++ first :: rest ∧ isAlphabetic first = true ∧
    ∀ c ∈ rest, isAlphanumeric c = true

/-- A name stands between two texts, neither of which goes on with it. -/
structure NameBetween (front name back : List Char) : Prop where
  name : ∃ first rest, name = first :: rest ∧ isAlphabetic first = true ∧
    ∀ c ∈ rest, isAlphanumeric c = true
  front : ¬ EndsInName front
  back : Kind.word.Ends back

/-- A name reaches over the border between two texts. -/
def CutsName (front back : List Char) : Prop := EndsInName front ∧ ¬ Kind.word.Ends back

/-- A place of a text belongs to this name in it. -/
def InName (text : List Char) (place : Nat) (name : List Char) : Prop :=
  ∃ front back, text = front ++ name ++ back ∧ NameBetween front name back ∧
    front.length ≤ place ∧ place < front.length + name.length

/-- A place of a window, in front of which some characters are hidden, is in no name of the
whole text, or what the window has there as a name is shown in the style of that name. -/
def NameKept (vars : Variables) (text window : List Char) (hidden place : Nat) : Prop :=
  ∀ name, InName text (hidden + place) name → ∃ shown, InName window place shown ∧
    nameStyle (String.ofList shown) vars .plain = nameStyle (String.ofList name) vars .plain

/-- The style of a character that stands in no name. -/
def charStyle (c : Char) (base : Style) : Style :=
  if c.isDigit || c = '.' then numberStyle else signStyle c base

@[simp] theorem styles_nil : styles [] = [] := rfl

@[simp] theorem styles_cons (span : Span) (spans : List Span) :
    styles (span :: spans) = (span.text.map fun _ => span.style) ++ styles spans := rfl

@[simp] theorem styles_append (front back : List Span) :
    styles (front ++ back) = styles front ++ styles back := List.flatMap_append

theorem length_styles (spans : List Span) : (styles spans).length = (spans.flatMap Span.text).length := by
  simp [styles, List.length_flatMap]

/-- As many styles as characters. -/
@[simp] theorem length_styles_spans (text : List Char) (vars : Variables) (base : Style) :
    (styles (spans text vars base)).length = text.length := by
  rw [length_styles, flatMap_text_spans]

/-! ## The glyphs of spans -/

theorem flatMap_chars_glyphs (spans : List Span) :
    (spans.flatMap Span.glyphs).flatMap Glyph.chars = spans.flatMap Span.text := by
  rw [List.flatMap_assoc]
  congr 1
  funext span
  rw [Span.glyphs, List.flatMap_map]
  exact List.flatMap_id'.trans (flatten_clusters span.text)

/-- A glyph has one style. -/
theorem styles_eq_flatMap_glyphs (spans : List Span) :
    styles spans = (spans.flatMap Span.glyphs).flatMap fun glyph =>
      glyph.chars.map fun _ => glyph.style := by
  rw [styles, List.flatMap_assoc]
  congr 1
  funext span
  rw [Span.glyphs, List.flatMap_map, List.flatMap_def]
  have htext := congrArg (List.map fun _ => span.style) (flatten_clusters span.text)
  rw [List.map_flatten] at htext
  exact htext.symm

/-- The characters of a glyph have its style. -/
theorem getElem?_styles_glyphs {spans : List Span} {before after : List Glyph} {glyph : Glyph}
    {place : Nat} (h : spans.flatMap Span.glyphs = before ++ glyph :: after)
    (hplace : place < glyph.chars.length) :
    (styles spans)[(before.flatMap Glyph.chars).length + place]? = some glyph.style := by
  have hbefore : (before.flatMap fun glyph => glyph.chars.map fun _ => glyph.style).length =
      (before.flatMap Glyph.chars).length := by
    simp [List.length_flatMap]
  rw [styles_eq_flatMap_glyphs, h, List.flatMap_append, ← hbefore,
    List.getElem?_append_right (Nat.le_add_right _ _), Nat.add_sub_cancel_left, List.flatMap_cons,
    List.getElem?_append_left (by simpa using hplace), List.getElem?_map,
    List.getElem?_eq_getElem hplace]
  rfl

theorem getElem?_chars_glyphs {spans : List Span} {before after : List Glyph} {glyph : Glyph}
    {place : Nat} (h : spans.flatMap Span.glyphs = before ++ glyph :: after)
    (hplace : place < glyph.chars.length) :
    (spans.flatMap Span.text)[(before.flatMap Glyph.chars).length + place]? =
      glyph.chars[place]? := by
  rw [← flatMap_chars_glyphs, h, List.flatMap_append,
    List.getElem?_append_right (Nat.le_add_right _ _), Nat.add_sub_cancel_left, List.flatMap_cons,
    List.getElem?_append_left hplace]

/-! ## Where names end -/

theorem not_endsInName_nil : ¬ EndsInName [] := by
  rintro ⟨before, first, rest, htext, -⟩
  simp at htext

theorem endsInName_concat {c : Char} : EndsInName (text ++ [c]) ↔
    isAlphabetic c = true ∨ EndsInName text ∧ isAlphanumeric c = true := by
  constructor
  · rintro ⟨before, first, rest, htext, hfirst, hrest⟩
    rcases List.eq_nil_or_concat rest with rfl | ⟨rest, last, rfl⟩
    · obtain ⟨-, hlast⟩ := List.append_inj' htext rfl
      obtain rfl := (List.cons.inj hlast).1
      exact .inl hfirst
    · rw [List.concat_eq_append, ← List.cons_append, ← List.append_assoc] at htext
      obtain ⟨hfront, hlast⟩ := List.append_inj' htext rfl
      obtain rfl := (List.cons.inj hlast).1
      refine .inr ⟨⟨before, first, rest, hfront, hfirst, ?_⟩, hrest c (by simp)⟩
      intro other hother
      exact hrest other (by simp [hother])
  · rintro (hc | ⟨⟨before, first, rest, rfl, hfirst, hrest⟩, hc⟩)
    · exact ⟨text, c, [], rfl, hc, nofun⟩
    · refine ⟨before, first, rest ++ [c], by simp, hfirst, ?_⟩
      intro other hother
      rcases List.mem_append.mp hother with hother | hother
      · exact hrest other hother
      · rwa [List.mem_singleton.mp hother]

/-- A text ends in a name when highlighting has begun a word there. -/
theorem foldl_kindOf_eq_word_iff (text : List Char) :
    text.foldl (fun kind c => kindOf c kind) .other = .word ↔ EndsInName text := by
  induction text using List.reverseRecOn with
  | nil => exact iff_of_false nofun not_endsInName_nil
  | append_singleton text c ih =>
      rw [List.foldl_append, List.foldl_cons, List.foldl_nil, endsInName_concat, ← ih]
      generalize text.foldl (fun kind c => kindOf c kind) .other = kind
      unfold kindOf
      split_ifs with hword hdigit
      · simpa using hword
      · simpa using hword
      · simpa using hword

theorem EndsInName.append (h : EndsInName text) (front : List Char) : EndsInName (front ++ text) := by
  obtain ⟨before, first, rest, rfl, hfirst, hrest⟩ := h
  exact ⟨front ++ before, first, rest, by simp, hfirst, hrest⟩

/-! ## Styles of a text that is cut -/

theorem styles_flush_number (vars : Variables) (base : Style) (run : List Char) :
    styles (flush vars base .number run) = run.map fun _ => numberStyle := by
  cases run <;> simp [flush]

/-- A number that has been begun and what goes on with it have one style. -/
theorem styles_spansFrom_number (vars : Variables) (base : Style) (current text : List Char) :
    styles (spansFrom vars base .number current text) =
      styles (flush vars base .number current.reverse) ++ styles (spans text vars base) := by
  have hsplit := List.takeWhile_append_dropWhile (p := fun c => c.isDigit || c = '.') (l := text)
  set digits := text.takeWhile fun c => c.isDigit || c = '.' with hdigits
  set rest := text.dropWhile fun c => c.isDigit || c = '.' with hrest
  have hrun : ∀ c ∈ digits, Kind.number.GoesOn c := by
    intro c hc
    simpa [Kind.GoesOn] using List.mem_takeWhile_imp hc
  have hends : Kind.number.Ends rest := by
    intro c hc
    simpa [Kind.GoesOn] using eq_false_of_head?_dropWhile hc
  rw [← hsplit, spansFrom_run hrun, spansFrom_of_ends hends, styles_append, styles_flush_number,
    styles_flush_number]
  by_cases hnone : digits = []
  · simp [hnone]
  · rw [spans_number hnone hrun hends, styles_cons, List.reverse_append, List.reverse_reverse,
      List.map_append, List.append_assoc]

/-- What follows a text is highlighted as a text of its own, unless it goes on with a name. -/
theorem styles_spansFrom_append (vars : Variables) (base : Style) (kind : Kind)
    (current front : List Char)
    (h : front.foldl (fun kind c => kindOf c kind) kind = .word → Kind.word.Ends back) :
    styles (spansFrom vars base kind current (front ++ back)) =
      styles (spansFrom vars base kind current front) ++ styles (spans back vars base) := by
  induction front generalizing kind current with
  | nil =>
      rw [List.nil_append, spansFrom]
      cases kind with
      | word => rw [spansFrom_of_ends (h rfl), styles_append]
      | number => exact styles_spansFrom_number vars base current back
      | other => rw [spansFrom_of_ends (fun _ _ => id), styles_append]
  | cons c front ih =>
      have hrest := fun current => ih (kindOf c kind) current h
      simp only [List.cons_append, spansFrom]
      split_ifs with hother hsame
      · rw [hother] at hrest
        simp [hrest]
      · rw [hsame] at hrest
        exact hrest _
      · simp [hrest]

theorem styles_spans_append (h : EndsInName front → Kind.word.Ends back) (vars : Variables)
    (base : Style) : styles (spans (front ++ back) vars base) =
      styles (spans front vars base) ++ styles (spans back vars base) :=
  styles_spansFrom_append vars base .other [] front fun hword =>
    h ((foldl_kindOf_eq_word_iff front).mp hword)

/-- A window that cuts no name shows the styles of the whole text. -/
theorem styles_window {hidden window rest : List Char} (hleft : ¬ CutsName hidden (window ++ rest))
    (hright : ¬ CutsName window rest) (vars : Variables) (base : Style) :
    styles (spans (hidden ++ window ++ rest) vars base) =
      styles (spans hidden vars base) ++ styles (spans window vars base) ++
        styles (spans rest vars base) := by
  rw [CutsName, not_and_not_right] at hleft hright
  rw [List.append_assoc, styles_spans_append hleft, styles_spans_append hright, List.append_assoc]

/-- A name has one style. -/
theorem styles_name (h : NameBetween front name back) (vars : Variables) (base : Style) :
    styles (spans (front ++ name ++ back) vars base) =
      styles (spans front vars base) ++
        name.map (fun _ => nameStyle (String.ofList name) vars base) ++
        styles (spans back vars base) := by
  obtain ⟨⟨first, rest, rfl, hfirst, hrest⟩, hfront, hback⟩ := h
  have hnone : Kind.word.Ends [] := nofun
  have hname := spans_name hfirst hrest hnone vars base
  rw [styles_spans_append fun _ => hback, styles_spans_append fun hends => absurd hends hfront,
    ← List.append_nil (first :: rest), hname]
  simp [spans, spansFrom, flush]

/-- A character that stands in no name has a style by itself. -/
theorem styles_char {c : Char} (h : ¬ EndsInName (front ++ [c])) (vars : Variables) (base : Style)
    (back : List Char) : styles (spans (front ++ c :: back) vars base) =
      styles (spans front vars base) ++ charStyle c base :: styles (spans back vars base) := by
  rw [endsInName_concat, not_or, not_and] at h
  obtain ⟨hletter, hfront⟩ := h
  have hends : EndsInName front → Kind.word.Ends (c :: back) := by
    rintro hname other hother
    obtain rfl := Option.some_inj.mp hother
    exact hfront hname
  have halone : ¬ EndsInName [c] := by
    intro hname
    rw [← List.nil_append [c]] at hname
    rcases endsInName_concat.mp hname with hc | ⟨hnil, -⟩
    · exact hletter hc
    · exact not_endsInName_nil hnil
  have hone : styles (spans [c] vars base) = [charStyle c base] := by
    rw [Bool.not_eq_true] at hletter
    unfold charStyle
    split_ifs with hdigit
    · simp_all [spans, spansFrom, kindOf, flush]
    · simp_all [spans, spansFrom, kindOf, flush]
  rw [styles_spans_append hends, ← List.singleton_append,
    styles_spans_append (fun hname => absurd hname halone), hone]
  rfl

/-! ## The style at a place -/

theorem EndsInName.exists_least (h : EndsInName text) :
    ∃ before first rest, text = before ++ first :: rest ∧ isAlphabetic first = true ∧
      (∀ c ∈ rest, isAlphanumeric c = true) ∧ ¬ EndsInName before := by
  induction hlength : text.length using Nat.strong_induction_on generalizing text with
  | _ length ih =>
      obtain ⟨before, first, rest, rfl, hfirst, hrest⟩ := h
      by_cases hearlier : EndsInName before
      · -- the name begins earlier, and the letter found goes on with it
        obtain ⟨before, other, more, rfl, hother, hmore, hleast⟩ :=
          ih before.length (by simp [← hlength]) hearlier rfl
        refine ⟨before, other, more ++ first :: rest, by simp, hother, ?_, hleast⟩
        intro c hc
        rcases List.mem_append.mp hc with hc | hc
        · exact hmore c hc
        · rcases List.mem_cons.mp hc with rfl | hc
          · simp [isAlphanumeric, hfirst]
          · exact hrest c hc
      · exact ⟨before, first, rest, rfl, hfirst, hrest, hearlier⟩

/-- A character up to which a text ends in a name belongs to one. -/
theorem exists_inName {c : Char} (h : EndsInName (front ++ [c])) (back : List Char) :
    ∃ name, InName (front ++ c :: back) front.length name := by
  obtain ⟨before, first, rest, htext, hfirst, hrest, hleast⟩ := h.exists_least
  have hlength := congrArg List.length htext
  simp only [List.length_append, List.length_cons, List.length_nil] at hlength
  refine ⟨first :: (rest ++ back.takeWhile isAlphanumeric), before, back.dropWhile isAlphanumeric,
    ?_, ⟨⟨first, _, rfl, hfirst, ?_⟩, hleast, ?_⟩, by omega, ?_⟩
  · rw [← List.singleton_append, ← List.append_assoc, htext]
    simp
  · intro other hother
    rcases List.mem_append.mp hother with hother | hother
    · exact hrest other hother
    · exact List.mem_takeWhile_imp hother
  · intro other hother
    exact Bool.eq_false_iff.mp (eq_false_of_head?_dropWhile hother)
  · simp only [List.length_cons, List.length_append]
    omega

theorem endsInName_of_inName {c : Char} (h : InName (front ++ c :: back) front.length name) :
    EndsInName (front ++ [c]) := by
  obtain ⟨before, after, htext, ⟨⟨first, rest, rfl, hfirst, hrest⟩, -, -⟩, hle, hlt⟩ := h
  obtain ⟨count, hcount⟩ := Nat.exists_eq_add_of_le hle
  refine ⟨before, first, rest.take count, ?_, hfirst, ?_⟩
  · have htake := congrArg (List.take (front.length + 1)) htext
    rw [List.take_length_add_append, List.take_succ_cons, List.take_zero, hcount, Nat.add_assoc,
      List.append_assoc, List.take_length_add_append, List.cons_append, List.take_succ_cons] at htake
    rw [htake, List.take_append_of_le_length]
    simp only [List.length_cons] at hlt
    omega
  · intro other hother
    exact hrest other (List.mem_of_mem_take hother)

theorem getElem?_styles_of_inName {place : Nat} (h : InName text place name) (vars : Variables)
    (base : Style) : (styles (spans text vars base))[place]? =
      some (nameStyle (String.ofList name) vars base) := by
  obtain ⟨front, back, rfl, hname, hle, hlt⟩ := h
  rw [styles_name hname, List.getElem?_append_left (by simpa using hlt),
    List.getElem?_append_right (by simpa using hle), List.getElem?_map, length_styles_spans,
    List.getElem?_eq_getElem (by omega)]
  rfl

theorem getElem?_styles_of_not_endsInName {c : Char} (h : ¬ EndsInName (front ++ [c]))
    (vars : Variables) (base : Style) (back : List Char) :
    (styles (spans (front ++ c :: back) vars base))[front.length]? = some (charStyle c base) := by
  rw [styles_char h, List.getElem?_append_right (by simp)]
  simp

/-- What is a sign of an expression is no part of a name. -/
theorem signStyle_of_not_breaks {c : Char} (h : ¬ Breaks c) (base : Style) :
    signStyle c base = base := by
  have hoperator : ¬ (Operator.ofSymbol? c).isSome = true := by
    intro hc
    obtain ⟨op, hop⟩ := Option.isSome_iff_exists.mp hc
    rw [← Operator.symbol_of_ofSymbol? hop] at h
    exact h (breaks_of_ofPunctuation? (Token.ofPunctuation?_symbol op))
  have hequals : c ≠ '=' := by
    rintro rfl
    exact h (breaks_of_isPunctuation rfl)
  rw [signStyle, if_neg hoperator, if_neg hequals]

theorem nameStyle_plain_mem (word : String) (vars : Variables) : nameStyle word vars .plain ∈
    [(Style.colored .lightBlue).asBold, .colored .lightCyan, Style.plain.asItalic] := by
  unfold nameStyle
  split
  · split_ifs <;> simp
  · simp

theorem charStyle_plain_mem {c : Char} (h : isAlphanumeric c = true) :
    charStyle c .plain ∈ [numberStyle, .plain] := by
  have hsign : signStyle c .plain = .plain := by
    apply signStyle_of_not_breaks
    intro hbreaks
    rw [hbreaks.name] at h
    cases h
  unfold charStyle
  rw [hsign]
  split_ifs <;> simp

/-- A numeral by itself never has the style of a name. -/
theorem charStyle_ne_nameStyle {c : Char} (h : isAlphanumeric c = true) (word : String)
    (vars : Variables) : charStyle c .plain ≠ nameStyle word vars .plain := by
  have hdisjoint : ∀ style ∈ [numberStyle, .plain], style ∉
      [(Style.colored .lightBlue).asBold, .colored .lightCyan, Style.plain.asItalic] := by decide
  intro hsame
  apply hdisjoint _ (charStyle_plain_mem h)
  rw [hsame]
  exact nameStyle_plain_mem word vars

/-- A character of a window has the style that it has in the whole text just when the window
keeps its name. -/
theorem style_kept_iff {hidden window rest : List Char} {place : Nat} (hplace : place < window.length)
    (vars : Variables) :
    (styles (spans window vars .plain))[place]? =
        (styles (spans (hidden ++ window ++ rest) vars .plain))[hidden.length + place]? ↔
      NameKept vars (hidden ++ window ++ rest) window hidden.length place := by
  obtain ⟨front, c, back, rfl, rfl⟩ : ∃ front c back, window = front ++ c :: back ∧
      place = front.length :=
    ⟨window.take place, window[place], window.drop (place + 1), by simp, by simp; omega⟩
  have hwhole : hidden ++ (front ++ c :: back) ++ rest = (hidden ++ front) ++ c :: (back ++ rest) := by
    simp
  rw [hwhole, NameKept, ← List.length_append]
  constructor
  · intro hkept name hname
    have halnum : isAlphanumeric c = true := by
      rcases endsInName_concat.mp (endsInName_of_inName hname) with hletter | ⟨-, halnum⟩
      · simp [isAlphanumeric, hletter]
      · exact halnum
    rw [getElem?_styles_of_inName hname] at hkept
    by_cases hends : EndsInName (front ++ [c])
    · obtain ⟨shown, hshown⟩ := exists_inName hends back
      rw [getElem?_styles_of_inName hshown] at hkept
      exact ⟨shown, hshown, Option.some_inj.mp hkept⟩
    · rw [getElem?_styles_of_not_endsInName hends] at hkept
      exact absurd (Option.some_inj.mp hkept) (charStyle_ne_nameStyle halnum _ vars)
  · intro hnames
    by_cases hends : EndsInName (hidden ++ front ++ [c])
    · obtain ⟨name, hname⟩ := exists_inName hends (back ++ rest)
      obtain ⟨shown, hshown, hstyle⟩ := hnames name hname
      rw [getElem?_styles_of_inName hname, getElem?_styles_of_inName hshown, hstyle]
    · have hshort : ¬ EndsInName (front ++ [c]) := by
        intro hname
        apply hends
        rw [List.append_assoc]
        exact hname.append hidden
      rw [getElem?_styles_of_not_endsInName hends, getElem?_styles_of_not_endsInName hshort]

end Reckoner.Highlight
