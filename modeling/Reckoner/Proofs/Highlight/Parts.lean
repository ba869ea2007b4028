import Reckoner.Proofs.Evaluation.Grammar
import Reckoner.Proofs.Highlight.Pieces
import Reckoner.Proofs.Token.Decomposition

/-! # Highlighting and tokens

Highlighting cuts a line by itself, without its tokens. In a line that can be read the two
agree: a span is a blank, a name, a sign, or the numbers that stand side by side without
a gap. -/

namespace Reckoner.Highlight

open Terminal Unicode

/-- The span begins like a name. -/
def beginsName (span : Span) : Bool := span.text.head?.any isAlphabetic

/-- The span begins like a number. -/
def beginsNumber (span : Span) : Bool := span.text.head?.any fun c => c.isDigit || c = '.'

/-- The span is an operator, a parenthesis or an assignment sign. -/
def isSign (span : Span) : Bool :=
  match span.text with
  | [c] => isPunctuation c
  | _ => false

/-- A name in the style of the variable of that name. -/
def nameSpan (vars : Variables) (base : Style) (name : String) : Span :=
  ⟨name.toList, nameStyle name vars base⟩

/-- The spans that show the parts of a line. Numbers side by side share a span. -/
inductive Shown (vars : Variables) (base : Style) : List Part → List Span → Prop
  | done : Shown vars base [] []
  | blank {c : Char} {parts : List Part} {shown : List Span} (hc : isBlank c = true)
      (hrest : Shown vars base parts shown) :
      Shown vars base (.blank c :: parts) (⟨[c], signStyle c base⟩ :: shown)
  | name {first : Char} {rest : List Char} {parts : List Part} {shown : List Span}
      (hfirst : isAlphabetic first = true) (hrest : Shown vars base parts shown) :
      Shown vars base (.lexeme (.identifier (String.ofList (first :: rest))) (first :: rest) :: parts)
        (⟨first :: rest, nameStyle (String.ofList (first :: rest)) vars base⟩ :: shown)
  | sign {c : Char} {token : Token} {parts : List Part} {shown : List Span}
      (hc : Token.ofPunctuation? c = some token) (hrest : Shown vars base parts shown) :
      Shown vars base (.lexeme token [c] :: parts) (⟨[c], signStyle c base⟩ :: shown)
  | numbers {numerals parts : List Part} {shown : List Span} (hne : numerals ≠ [])
      (hnumerals : ∀ part ∈ numerals, ∃ value text, part = .lexeme (.number value) text ∧
        Token.Lexeme (.number value) text)
      (hrest : Shown vars base parts shown) :
      Shown vars base (numerals ++ parts) (⟨numerals.flatMap Part.text, numberStyle⟩ :: shown)

/-- The span shows numbers that stand side by side among the parts. -/
def JoinsNumbers (parts : List Part) (span : Span) : Prop :=
  ∃ numerals, numerals ≠ [] ∧ numerals <:+: parts ∧
    (∀ part ∈ numerals, ∃ value text, part = .lexeme (.number value) text) ∧
    span.text = numerals.flatMap Part.text

variable {vars : Variables} {base : Style} {parts : List Part} {shown : List Span}

/-! ## The spans of a line that can be read -/

/-- The part is a number. -/
def isNumber : Part → Bool
  | .lexeme (.number _) _ => true
  | _ => false

theorem goesOn_of_lexeme_number {value : Float} {text : List Char}
    (h : Token.Lexeme (.number value) text) : ∀ c ∈ text, Kind.number.GoesOn c := by
  cases h with
  | number hl hv =>
      intro c hc
      have hdigit := hl.digit_or_point hc
      simpa [Kind.GoesOn] using hdigit
  | single hc => exact absurd (Token.isOperand_of_ofPunctuation? hc) Bool.true_eq_false.mp

/-- Only a number begins with what goes on with a number. -/
theorem not_goesOn_number {part : Part} (hproper : part.Proper) (hnumber : isNumber part = false) :
    ∀ c ∈ part.text.head?, ¬ Kind.number.GoesOn c := by
  intro c hc
  cases part with
  | blank blank =>
      obtain rfl := Option.some_inj.mp hc
      exact Kind.not_goesOn_of_breaks (breaks_of_isBlank hproper) .number
  | lexeme token text =>
      cases Part.proper_lexeme_iff.mp hproper with
      | number hl hv => cases hnumber
      | name hfirst hrest =>
          obtain rfl := Option.some_inj.mp hc
          intro hdigit
          rw [isAlphabetic_of_isDigit hdigit] at hfirst
          cases hfirst
      | single hsign =>
          obtain rfl := Option.some_inj.mp hc
          exact Kind.not_goesOn_of_breaks (breaks_of_ofPunctuation? hsign) .number

theorem exists_lexeme_of_isNumber {part : Part} (hproper : part.Proper) (h : isNumber part = true) :
    ∃ value text, part = .lexeme (.number value) text ∧ Token.Lexeme (.number value) text := by
  cases part with
  | blank c => cases h
  | lexeme token text =>
      cases token with
      | number value => exact ⟨value, text, rfl, Part.proper_lexeme_iff.mp hproper⟩
      | _ => cases h

/-- The numbers that stand side by side at the front of some parts. -/
theorem exists_numerals {part : Part} (h : isNumber part = true) (parts : List Part) :
    ∃ numerals others, part :: parts = numerals ++ others ∧ numerals ≠ [] ∧
      (∀ part ∈ numerals, isNumber part = true) ∧
      (∀ part ∈ others.head?, isNumber part = false) ∧ others.length ≤ parts.length := by
  refine ⟨part :: parts.takeWhile isNumber, parts.dropWhile isNumber, ?_, List.cons_ne_nil _ _, ?_,
    ?_, (List.dropWhile_sublist isNumber).length_le⟩
  · rw [List.cons_append, List.takeWhile_append_dropWhile]
  · exact List.forall_mem_cons.mpr ⟨h, fun part hpart => List.mem_takeWhile_imp hpart⟩
  · exact fun part hpart => eq_false_of_head?_dropWhile hpart

/-- Numbers side by side share a span, up to the first part that is none. -/
theorem spans_numbers {text : List Char} {numerals others : List Part}
    (h : Decomposition text (numerals ++ others)) (hne : numerals ≠ [])
    (hnumerals : ∀ part ∈ numerals, isNumber part = true)
    (hothers : ∀ part ∈ others.head?, isNumber part = false) (vars : Variables) (base : Style) :
    spans text vars base = ⟨numerals.flatMap Part.text, numberStyle⟩ ::
      spans (others.flatMap Part.text) vars base := by
  have hproper : ∀ part ∈ numerals, part.Proper := fun part hpart =>
    h.proper part (List.mem_append_left others hpart)
  have hright := h.right
  rw [← h.whole, List.flatMap_append]
  apply spans_number
  · obtain ⟨part, more, rfl⟩ := List.exists_cons_of_ne_nil hne
    have htext := (hproper part List.mem_cons_self).text_ne_nil
    simp [htext]
  · intro c hc
    obtain ⟨part, hpart, hc⟩ := List.mem_flatMap.mp hc
    obtain ⟨value, text, rfl, hlexeme⟩ :=
      exists_lexeme_of_isNumber (hproper part hpart) (hnumerals part hpart)
    exact goesOn_of_lexeme_number hlexeme c hc
  · intro c hc
    rw [head?_flatMap_text hright.proper] at hc
    obtain ⟨part, hpart, hc⟩ := Option.mem_bind_iff.mp hc
    exact not_goesOn_number (hright.proper part (List.mem_of_mem_head? hpart)) (hothers part hpart) c hc

/-- The spans of a line follow its parts. -/
theorem shown_spans (vars : Variables) (base : Style) {text : List Char} {parts : List Part}
    (h : Decomposition text parts) : Shown vars base parts (spans text vars base) := by
  induction hlength : parts.length using Nat.strong_induction_on generalizing text parts with
  | _ length ih =>
      subst hlength
      cases parts with
      | nil =>
          obtain rfl := h.eq_nil_iff.mp rfl
          exact .done
      | cons part parts =>
          obtain ⟨rest, rfl, hproper, hstops, hd⟩ := decomposition_cons_iff.mp h
          have hshown := ih parts.length (Nat.lt_succ_self _) hd rfl
          cases part with
          | blank c =>
              have hspans := spans_of_breaks (breaks_of_isBlank hproper) vars base rest
              exact hspans ▸ .blank hproper hshown
          | lexeme token lexeme =>
              cases Part.proper_lexeme_iff.mp hproper with
              | name hfirst hrun =>
                  have hspans := spans_name hfirst hrun hstops vars base
                  exact hspans ▸ .name hfirst hshown
              | single hsign =>
                  have hspans := spans_of_breaks (breaks_of_ofPunctuation? hsign) vars base rest
                  exact hspans ▸ .sign hsign hshown
              | @number literal value hl hv =>
                  obtain ⟨numerals, others, hsplit, hne, hnumerals, hothers, hlength⟩ :=
                    exists_numerals (show isNumber (.lexeme (.number value) literal.chars) = true
                      from rfl) parts
                  have hproper := h.proper
                  rw [hsplit] at h hproper ⊢
                  rw [spans_numbers h hne hnumerals hothers]
                  apply Shown.numbers hne
                  · intro part hpart
                    exact exists_lexeme_of_isNumber
                      (hproper part (List.mem_append_left _ hpart)) (hnumerals part hpart)
                  · -- the rest begins behind all the numbers
                    exact ih _ (Nat.lt_succ_of_le hlength) h.right rfl

/-! ## What the spans say -/

theorem isSign_eq_false {first : Char} (h : ¬ Breaks first) (rest : List Char) (style : Style) :
    isSign ⟨first :: rest, style⟩ = false := by
  cases rest with
  | nil => exact Bool.eq_false_iff.mpr fun hsign => h (breaks_of_isPunctuation hsign)
  | cons second rest => rfl

/-- The text of some numbers begins with a digit or a point. -/
theorem exists_first_of_numerals {numerals : List Part} (hne : numerals ≠ [])
    (hnumerals : ∀ part ∈ numerals, ∃ value text, part = .lexeme (.number value) text ∧
      Token.Lexeme (.number value) text) :
    ∃ first rest, numerals.flatMap Part.text = first :: rest ∧ Kind.number.GoesOn first := by
  obtain ⟨part, more, rfl⟩ := List.exists_cons_of_ne_nil hne
  obtain ⟨value, text, rfl, hlexeme⟩ := hnumerals part List.mem_cons_self
  obtain ⟨first, rest, rfl⟩ := List.exists_cons_of_ne_nil hlexeme.ne_nil
  exact ⟨first, rest ++ more.flatMap Part.text, rfl,
    goesOn_of_lexeme_number hlexeme first List.mem_cons_self⟩

theorem exists_number_of_mem_numerals {numerals : List Part} {token : Token}
    (hnumerals : ∀ part ∈ numerals, ∃ value text, part = .lexeme (.number value) text ∧
      Token.Lexeme (.number value) text)
    (h : token ∈ numerals.filterMap Part.token?) : ∃ value, token = .number value := by
  obtain ⟨part, hpart, htoken⟩ := List.mem_filterMap.mp h
  obtain ⟨value, text, rfl, -⟩ := hnumerals part hpart
  exact ⟨value, (Option.some_inj.mp htoken).symm⟩

theorem not_breaks_of_goesOn {first : Char} {kind : Kind} (h : kind.GoesOn first) :
    ¬ Breaks first :=
  fun hbreaks => Kind.not_goesOn_of_breaks hbreaks kind h

theorem not_beginsNumber_of_breaks {c : Char} (h : Breaks c) (style : Style) :
    ¬ beginsNumber ⟨[c], style⟩ = true := by
  simp [beginsNumber, h.digit, h.point]

/-- The spans that begin like a name are the names. -/
theorem Shown.filter_beginsName (h : Shown vars base parts shown) :
    shown.filter beginsName = (names (parts.filterMap Part.token?)).map (nameSpan vars base) := by
  induction h with
  | done => rfl
  | @blank c parts shown hc hrest ih =>
      have hletter : beginsName ⟨[c], signStyle c base⟩ = false :=
        (Bool.or_eq_false_iff.mp (breaks_of_isBlank hc).name).1
      rw [List.filter_cons_of_neg (Bool.eq_false_iff.mp hletter), ih]
      rfl
  | @name first rest parts shown hfirst hrest ih =>
      have hname : nameSpan vars base (String.ofList (first :: rest)) =
          ⟨first :: rest, nameStyle (String.ofList (first :: rest)) vars base⟩ := by
        rw [nameSpan, String.toList_ofList]
      rw [List.filter_cons_of_pos (by exact hfirst), ih, ← hname]
      rfl
  | @sign c token parts shown hc hrest ih =>
      have hletter : beginsName ⟨[c], signStyle c base⟩ = false :=
        (Bool.or_eq_false_iff.mp (breaks_of_ofPunctuation? hc).name).1
      have hname : Token.name? token = none := by
        have hoperand := Token.isOperand_of_ofPunctuation? hc
        cases token with
        | identifier name => cases hoperand
        | _ => rfl
      rw [List.filter_cons_of_neg (Bool.eq_false_iff.mp hletter), ih]
      simp [names, Part.token?, hname]
  | @numbers numerals parts shown hne hnumerals hrest ih =>
      obtain ⟨first, rest, htext, hfirst⟩ := exists_first_of_numerals hne hnumerals
      have hletter : beginsName ⟨numerals.flatMap Part.text, numberStyle⟩ = false := by
        rw [htext]
        exact isAlphabetic_of_isDigit hfirst
      have hnone : names (numerals.filterMap Part.token?) = [] := by
        apply List.filterMap_eq_nil_iff.mpr
        intro token htoken
        obtain ⟨value, rfl⟩ := exists_number_of_mem_numerals hnumerals htoken
        rfl
      rw [List.filter_cons_of_neg (Bool.eq_false_iff.mp hletter), ih, List.filterMap_append, names_append,
        hnone, List.nil_append]

/-- The spans that are signs are the tokens without the operands. -/
theorem Shown.filter_isSign (h : Shown vars base parts shown) :
    (shown.filter isSign).map Span.text =
      ((parts.filterMap Part.token?).filter (!·.isOperand)).map (·.text.toList) := by
  induction h with
  | done => rfl
  | @blank c parts shown hc hrest ih =>
      have hsign : isSign ⟨[c], signStyle c base⟩ = false := by
        refine Bool.eq_false_iff.mpr fun hsign => ?_
        rw [isBlank_of_isPunctuation hsign] at hc
        cases hc
      rw [List.filter_cons_of_neg (Bool.eq_false_iff.mp hsign), ih]
      rfl
  | @name first rest parts shown hfirst hrest ih =>
      have hword : Kind.word.GoesOn first := by simp [Kind.GoesOn, isAlphanumeric, hfirst]
      have hsign := isSign_eq_false (not_breaks_of_goesOn hword) rest
        (nameStyle (String.ofList (first :: rest)) vars base)
      rw [List.filter_cons_of_neg (Bool.eq_false_iff.mp hsign), ih]
      rfl
  | @sign c token parts shown hc hrest ih =>
      obtain ⟨hoperand, htext⟩ := Token.text_of_ofPunctuation? hc
      have hsign : isSign ⟨[c], signStyle c base⟩ = true := isPunctuation_of_ofPunctuation? hc
      rw [List.filter_cons_of_pos hsign, List.map_cons, ih]
      simp [Part.token?, hoperand, htext]
  | @numbers numerals parts shown hne hnumerals hrest ih =>
      obtain ⟨first, rest, htext, hfirst⟩ := exists_first_of_numerals hne hnumerals
      have hsign : isSign ⟨numerals.flatMap Part.text, numberStyle⟩ = false := by
        rw [htext]
        exact isSign_eq_false (not_breaks_of_goesOn hfirst) rest numberStyle
      have hnone : (numerals.filterMap Part.token?).filter (!·.isOperand) = [] := by
        apply List.filter_eq_nil_iff.mpr
        intro token htoken
        obtain ⟨value, rfl⟩ := exists_number_of_mem_numerals hnumerals htoken
        exact Bool.false_ne_true
      rw [List.filter_cons_of_neg (Bool.eq_false_iff.mp hsign), ih, List.filterMap_append, List.filter_append,
        hnone, List.nil_append]

theorem JoinsNumbers.append_left {span : Span} (h : JoinsNumbers parts span) (front : List Part) :
    JoinsNumbers (front ++ parts) span := by
  obtain ⟨numerals, hne, hinfix, hnumerals, htext⟩ := h
  exact ⟨numerals, hne, hinfix.trans (List.suffix_append front parts).isInfix, hnumerals, htext⟩

/-- A span that begins like a number shows numbers that stand side by side. -/
theorem Shown.joinsNumbers (h : Shown vars base parts shown) {span : Span} (hspan : span ∈ shown)
    (hbegins : beginsNumber span = true) : JoinsNumbers parts span := by
  induction h with
  | done => cases hspan
  | @blank c parts shown hc hrest ih =>
      rcases List.mem_cons.mp hspan with rfl | hspan
      · exact absurd hbegins (not_beginsNumber_of_breaks (breaks_of_isBlank hc) _)
      · exact (ih hspan).append_left [_]
  | @name first rest parts shown hfirst hrest ih =>
      rcases List.mem_cons.mp hspan with rfl | hspan
      · obtain ⟨hdigit, hpoint⟩ := isDigit_of_isAlphabetic hfirst
        simp [beginsNumber, hdigit, hpoint] at hbegins
      · exact (ih hspan).append_left [_]
  | @sign c token parts shown hc hrest ih =>
      rcases List.mem_cons.mp hspan with rfl | hspan
      · exact absurd hbegins (not_beginsNumber_of_breaks (breaks_of_ofPunctuation? hc) _)
      · exact (ih hspan).append_left [_]
  | @numbers numerals parts shown hne hnumerals hrest ih =>
      rcases List.mem_cons.mp hspan with rfl | hspan
      · refine ⟨numerals, hne, (List.prefix_append numerals parts).isInfix, ?_, rfl⟩
        intro part hpart
        obtain ⟨value, text, hlexeme, -⟩ := hnumerals part hpart
        exact ⟨value, text, hlexeme⟩
      · exact (ih hspan).append_left numerals

/-- The spans of a line are the line, cut where none of them is empty. If the line can be
read, those that begin like a name are its names in order, each in the style of its variable;
those that are signs are its tokens without the operands, in order; and one that begins
like a number shows numbers of the line that stand side by side. -/
theorem spans_follow_tokens (line : String) (vars : Variables) (base : Style) :
    let shown := spans line.toList vars base
    shown.flatMap Span.text = line.toList ∧ (∀ span ∈ shown, span.text ≠ []) ∧
      ∀ tokens, tokenize line = .ok tokens →
        ∃ parts, Decomposition line.toList parts ∧ parts.filterMap Part.token? = tokens ∧
          shown.filter beginsName = (names tokens).map (nameSpan vars base) ∧
          (shown.filter isSign).map Span.text =
            (tokens.filter (!·.isOperand)).map (·.text.toList) ∧
          ∀ span ∈ shown, beginsNumber span = true → JoinsNumbers parts span := by
  intro shown
  refine ⟨flatMap_text_spans _ _ _, fun span => text_ne_nil_of_mem_spans, ?_⟩
  intro tokens htokens
  obtain ⟨parts, hparts, rfl⟩ := exists_decomposition_of_scan htokens
  have hshown : Shown vars base parts shown := shown_spans vars base hparts
  refine ⟨parts, hparts, rfl, hshown.filter_beginsName, hshown.filter_isSign, ?_⟩
  intro span hspan hbegins
  exact hshown.joinsNumbers hspan hbegins

/-- Two numbers without a gap share a span; a numeral belongs to its name. -/
theorem spans_follow_tokens_touching_numbers :
    let line := "x²=1.2.3*pi"
    let shown := spans line.toList .initial .plain
    tokenize line = .ok [.identifier "x²", .assign, .number 1.2, .number 0.3, .operator .mul,
        .identifier "pi"] ∧
      shown.filter beginsName = [⟨['x', '²'], Style.plain.asItalic⟩,
        ⟨['p', 'i'], (Style.colored .lightBlue).asBold⟩] ∧
      (shown.filter isSign).map Span.text = [['='], ['*']] ∧
      ∃ parts, Decomposition line.toList parts ∧
        JoinsNumbers parts ⟨['1', '.', '2', '.', '3'], numberStyle⟩ := by
  intro line shown
  have htokens : tokenize line = .ok [.identifier "x²", .assign, .number 1.2, .number 0.3,
      .operator .mul, .identifier "pi"] := by decide +kernel
  obtain ⟨-, -, hread⟩ := spans_follow_tokens line .initial .plain
  obtain ⟨parts, hparts, -, hnames, hsigns, hnumbers⟩ := hread _ htokens
  refine ⟨htokens, hnames.trans (by decide), hsigns.trans (by decide), parts, hparts, ?_⟩
  exact hnumbers _ (by decide +kernel) (by decide)

end Reckoner.Highlight
