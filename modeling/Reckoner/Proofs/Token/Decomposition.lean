import Reckoner.Proofs.Token.Lexeme
import Mathlib.Data.List.Chain
import Mathlib.Data.List.Basic

/-! # The lexemes of a line

A line that can be read consists of blanks and of one lexeme for each token. A
lexeme ends where the next character does not go on with it, so there is one such
decomposition at most, and a text that has none has one up to a fault. -/

namespace Reckoner

open Unicode

/-- A run of digits with at most one point and at least one digit. -/
structure IsNumeral (text : List Char) : Prop where
  char : ∀ c ∈ text, c.isDigit = true ∨ c = '.'
  point : text.count '.' ≤ 1
  digit : ∃ c ∈ text, c.isDigit = true

/-- The double nearest to a numeral: its digits without the point, divided by ten
for each digit behind it. -/
def numeralValue (text : List Char) : Float :=
  (Decimal.mk (Nat.ofDigitChars 10 (text.filter (· ≠ '.')) 0)
    ((text.dropWhile (· ≠ '.')).length - 1)).toFloat

/-- A part of a line. -/
inductive Part where
  | blank (c : Char)
  | lexeme (token : Token) (text : List Char)

namespace Part

def text : Part → List Char
  | .blank c => [c]
  | .lexeme _ text => text

def token? : Part → Option Token
  | .blank _ => none
  | .lexeme token _ => some token

/-- The part is a blank, or a text that stands for its token: a numeral, a name, or
the character of the token. -/
def Proper : Part → Prop
  | .blank c => isBlank c = true
  | .lexeme (.number value) text => IsNumeral text ∧ numeralValue text = value
  | .lexeme (.identifier name) text => name.toList = text ∧ ∃ first rest, text = first :: rest ∧
      isAlphabetic first = true ∧ ∀ c ∈ rest, isAlphanumeric c = true
  | .lexeme token text => token.text.toList = text

/-- The character goes on with the token of the part. -/
def Absorbs (part : Part) (c : Char) : Prop :=
  match part with
  | .blank _ => False
  | .lexeme token text => token.Absorbs text c

end Part

/-- The parts make up the line, and none of them goes on with what follows it. -/
structure Decomposition (line : List Char) (parts : List Part) : Prop where
  whole : parts.flatMap Part.text = line
  proper : ∀ part ∈ parts, part.Proper
  longest : parts.IsChain fun part next => ∀ c ∈ next.text.head?, ¬ part.Absorbs c

section Numeral

namespace Literal

variable {literal : Literal}

theorem Proper.numeralValue_chars (h : literal.Proper) :
    numeralValue literal.chars = (Decimal.mk
      (Nat.ofDigitChars 10 (literal.whole ++ literal.fraction) 0) literal.fraction.length).toFloat := by
  have hsolid {digits : List Char} (hd : '.' ∉ digits) : ∀ c ∈ digits, decide (c ≠ '.') = true := by
    intro c hm
    exact decide_eq_true (ne_of_mem_of_not_mem hm hd)
  have hw := hsolid h.point_notMem_whole
  have hf := hsolid h.point_notMem_fraction
  cases hp : literal.point with
  | true =>
      have hchars : literal.chars = literal.whole ++ '.' :: literal.fraction := by
        simp [chars, hp]
      rw [numeralValue, hchars, List.filter_append, List.filter_cons_of_neg (by decide),
        List.filter_eq_self.mpr hw, List.filter_eq_self.mpr hf, List.dropWhile_append_of_pos hw]
      rfl
  | false =>
      have hchars : literal.chars = literal.whole := by simp [chars, hp, h.point hp]
      rw [numeralValue, hchars, List.filter_eq_self.mpr hw, List.dropWhile_eq_nil_iff.mpr hw,
        h.point hp, List.append_nil]
      rfl

/-- A literal has a value when it is a numeral. -/
theorem Proper.value?_eq_some_iff (h : literal.Proper) {value : Float} :
    literal.value? = some value ↔ IsNumeral literal.chars ∧ numeralValue literal.chars = value := by
  have hnumeral : IsNumeral literal.chars ↔ ¬ (literal.whole = [] ∧ literal.fraction = []) := by
    constructor
    · rintro ⟨_, _, c, hm, hdigit⟩ ⟨hw, hf⟩
      simp only [chars, hw, hf, List.nil_append, List.append_nil] at hm
      split at hm
      · rw [List.mem_singleton.mp hm] at hdigit
        exact absurd hdigit (by decide)
      · cases hm
    · intro hne
      refine ⟨?_, ?_, ?_⟩
      · intro c hm
        simpa using h.digit_or_point hm
      · have hw := List.count_eq_zero.mpr h.point_notMem_whole
        have hf := List.count_eq_zero.mpr h.point_notMem_fraction
        cases hp : literal.point <;> simp [chars, hp, hw, hf]
      · by_cases hw : literal.whole = []
        · obtain ⟨c, rest, hf⟩ := List.exists_cons_of_ne_nil fun hf => hne ⟨hw, hf⟩
          exact ⟨c, by simp [chars, hf], h.fraction c (by simp [hf])⟩
        · obtain ⟨c, rest, hw⟩ := List.exists_cons_of_ne_nil hw
          exact ⟨c, by simp [chars, hw], h.whole c (by simp [hw])⟩
  rw [hnumeral, h.numeralValue_chars, value?, Decimal.ofParts?]
  by_cases hn : literal.whole = [] ∧ literal.fraction = []
  · simp [hn.1, hn.2]
  · rw [if_neg (by simpa using hn)]
    simp [hn]

end Literal

theorem IsNumeral.exists_literal {text : List Char} (h : IsNumeral text) :
    ∃ literal : Literal, literal.Proper ∧ literal.chars = text := by
  have hdigit {c : Char} (hm : c ∈ text) (hc : c ≠ '.') : c.isDigit = true :=
    (h.char c hm).resolve_right hc
  by_cases hp : '.' ∈ text
  · obtain ⟨whole, fraction, rfl, hw⟩ := List.eq_append_cons_of_mem hp
    have hf : '.' ∉ fraction := by
      have hcount := h.point
      rw [List.count_append, List.count_cons_self] at hcount
      exact List.count_eq_zero.mp (by omega)
    refine ⟨⟨whole, true, fraction⟩, ⟨?_, ?_, by simp⟩, by simp [Literal.chars]⟩
    · intro c hm
      exact hdigit (by simp [hm]) (ne_of_mem_of_not_mem hm hw)
    · intro c hm
      exact hdigit (by simp [hm]) (ne_of_mem_of_not_mem hm hf)
  · refine ⟨⟨text, false, []⟩, ⟨?_, List.forall_mem_nil _, fun _ => rfl⟩, by simp [Literal.chars]⟩
    intro c hm
    exact hdigit hm (ne_of_mem_of_not_mem hm hp)

end Numeral

namespace Part

/-- A text stands for a token when it is a lexeme of it. -/
theorem proper_lexeme_iff {token : Token} {text : List Char} :
    (lexeme token text).Proper ↔ token.Lexeme text := by
  constructor
  · intro h
    cases token with
    | number value =>
        obtain ⟨hn, hv⟩ := h
        obtain ⟨literal, hl, rfl⟩ := hn.exists_literal
        exact .number hl (hl.value?_eq_some_iff.mpr ⟨hn, hv⟩)
    | identifier name =>
        obtain ⟨hname, first, rest, rfl, hf, hr⟩ := h
        have hprint : String.ofList (first :: rest) = name := by rw [← hname, String.ofList_toList]
        exact hprint ▸ Token.Lexeme.name hf hr
    | operator | leftParen | rightParen | assign =>
        obtain rfl := h
        exact Token.lexeme_text_of_not_isOperand rfl
  · intro h
    cases h with
    | number hl hv => exact hl.value?_eq_some_iff.mp hv
    | @name first rest hf hr => exact ⟨String.toList_ofList, first, rest, rfl, hf, hr⟩
    | single hc =>
        obtain ⟨ho, ht⟩ := Token.text_of_ofPunctuation? hc
        cases token with
        | number | identifier => cases ho
        | _ => exact ht

theorem Proper.text_ne_nil {part : Part} (h : part.Proper) : part.text ≠ [] := by
  cases part with
  | blank c => exact List.cons_ne_nil c []
  | lexeme token text => exact (proper_lexeme_iff.mp h).ne_nil

end Part

/-- No character that follows the parts goes on with the last of them. -/
def Stops (parts : List Part) (back : List Char) : Prop :=
  ∀ part ∈ parts.getLast?, ∀ c ∈ back.head?, ¬ part.Absorbs c

/-- The text cannot be read on: no token begins it. -/
def Halts (text : List Char) : Prop :=
  ∀ c rest, text = c :: rest → isBlank c = false ∧ ∃ fault, Token.next c rest = .error fault

section

variable {part other : Part} {parts others : List Part} {text front back rest rest' : List Char}

theorem head?_flatMap_text (h : ∀ part ∈ parts, part.Proper) :
    (parts.flatMap Part.text).head? = parts.head?.bind fun part => part.text.head? := by
  cases parts with
  | nil => rfl
  | cons part parts =>
      rw [List.flatMap_cons, List.head?_append_of_ne_nil _ (h part List.mem_cons_self).text_ne_nil]
      rfl

theorem decomposition_cons_iff :
    Decomposition text (part :: parts) ↔ ∃ rest, text = part.text ++ rest ∧ part.Proper ∧
      (∀ c ∈ rest.head?, ¬ part.Absorbs c) ∧ Decomposition rest parts := by
  constructor
  · rintro ⟨rfl, hproper, hlongest⟩
    obtain ⟨hpart, hparts⟩ := List.forall_mem_cons.mp hproper
    obtain ⟨hnext, hchain⟩ := List.isChain_cons.mp hlongest
    refine ⟨parts.flatMap Part.text, List.flatMap_cons, hpart, ?_, rfl, hparts, hchain⟩
    intro c hc
    rw [head?_flatMap_text hparts] at hc
    obtain ⟨next, hn, hc⟩ := Option.mem_bind_iff.mp hc
    exact hnext next hn c hc
  · rintro ⟨rest, rfl, hpart, hstops, rfl, hparts, hchain⟩
    refine ⟨List.flatMap_cons, List.forall_mem_cons.mpr ⟨hpart, hparts⟩,
      List.isChain_cons.mpr ⟨?_, hchain⟩⟩
    intro next hn c hc
    apply hstops
    rw [head?_flatMap_text hparts]
    exact Option.mem_bind_iff.mpr ⟨next, hn, hc⟩

theorem Decomposition.nil : Decomposition [] [] := ⟨rfl, nofun, .nil⟩

theorem Decomposition.right {front back : List Part} (h : Decomposition text (front ++ back)) :
    Decomposition (back.flatMap Part.text) back where
  whole := rfl
  proper := fun part hpart => h.proper part (List.mem_append_right front hpart)
  longest := h.longest.right_of_append

theorem Decomposition.eq_nil_iff (h : Decomposition text parts) : parts = [] ↔ text = [] := by
  cases parts with
  | nil => simpa using h.whole.symm
  | cons part parts =>
      obtain ⟨rest, rfl, hp, _⟩ := decomposition_cons_iff.mp h
      simp [hp.text_ne_nil]

/-- A part is followed by another one, or by what follows the parts. -/
theorem stops_cons_iff (h : Decomposition rest parts) :
    (∀ c ∈ rest.head?, ¬ part.Absorbs c) ∧ Stops (part :: parts) back ↔
      (∀ c ∈ (rest ++ back).head?, ¬ part.Absorbs c) ∧ Stops parts back := by
  cases parts with
  | nil =>
      obtain rfl := h.eq_nil_iff.mp rfl
      simp [Stops]
  | cons next parts =>
      have hne : rest ≠ [] := mt h.eq_nil_iff.mpr (List.cons_ne_nil _ _)
      rw [List.head?_append_of_ne_nil _ hne, Stops, List.getLast?_cons_cons, ← Stops]

/-- A text is read along its decomposition. -/
theorem Decomposition.scan_append (h : Decomposition text parts) (hs : Stops parts back)
    (column : Nat) : Token.scan column (text ++ back) =
      (Token.scan (column + text.length) back).map (parts.filterMap Part.token? ++ ·) := by
  induction parts generalizing text column with
  | nil =>
      obtain rfl := h.eq_nil_iff.mp rfl
      change _ = (Token.scan column back).map id
      rw [Except.map_id]
      rfl
  | cons part parts ih =>
      obtain ⟨rest, rfl, hp, hends, hd⟩ := decomposition_cons_iff.mp h
      obtain ⟨hends', hs'⟩ := (stops_cons_iff hd).mp ⟨hends, hs⟩
      cases part with
      | blank c =>
          have hn := Token.scan_blank column hp (rest ++ back)
          rw [Part.text, List.append_assoc, List.singleton_append, hn, ih hd hs',
            List.length_append, Nat.add_assoc]
          rfl
      | lexeme token lexeme =>
          have hl := Part.proper_lexeme_iff.mp hp
          obtain ⟨c, tail, rfl⟩ := List.exists_cons_of_ne_nil hl.ne_nil
          obtain ⟨hc, hn⟩ := Token.next_append_of_lexeme hl _ hends'
          have hcolumn : column + 1 + tail.length + rest.length =
              column + (c :: tail ++ rest).length := by
            simp only [List.length_append, List.length_cons]
            omega
          change Token.scan column (c :: tail ++ rest ++ back) =
            (Token.scan (column + (c :: tail ++ rest).length) back).map _
          rw [List.append_assoc, List.cons_append, Token.scan_token column (by simp [hc]) hn,
            List.drop_left, ih hd hs', hcolumn]
          cases Token.scan (column + (c :: tail ++ rest).length) back <;> rfl

/-- Every text is decomposed up to where it cannot be read on. -/
theorem exists_decomposition : ∀ text : List Char, ∃ front parts back, text = front ++ back ∧
    Decomposition front parts ∧ Stops parts back ∧ Halts back
  | [] => ⟨[], [], [], rfl, .nil, nofun, nofun⟩
  | c :: rest => by
      by_cases hb : isBlank c = true
      · obtain ⟨front, parts, back, rfl, hd, hs, hh⟩ := exists_decomposition rest
        have hends : ∀ c' ∈ (front ++ back).head?, ¬ (Part.blank c).Absorbs c' := fun _ _ => id
        obtain ⟨hends, hs⟩ := (stops_cons_iff hd).mpr ⟨hends, hs⟩
        exact ⟨c :: front, .blank c :: parts, back, rfl,
          decomposition_cons_iff.mpr ⟨front, rfl, hb, hends, hd⟩, hs, hh⟩
      · cases hn : Token.next c rest with
        | error fault =>
            refine ⟨[], [], c :: rest, rfl, .nil, nofun, ?_⟩
            rintro c' rest' ⟨⟩
            exact ⟨by simpa using hb, fault, hn⟩
        | ok read =>
            obtain ⟨text, after, hrest, -, hl, hends⟩ := Token.exists_lexeme_of_next hn
            have hlt : after.length < (c :: rest).length := by
              rw [hrest, List.length_cons, List.length_append]
              omega
            obtain ⟨front, parts, back, rfl, hd, hs, hh⟩ := exists_decomposition after
            have hfollow : (∀ c' ∈ front.head?, ¬ Part.Absorbs (.lexeme read.1 (c :: text)) c') ∧
                Stops (.lexeme read.1 (c :: text) :: parts) back :=
              (stops_cons_iff hd).mpr ⟨hends, hs⟩
            refine ⟨c :: text ++ front, .lexeme read.1 (c :: text) :: parts, back,
              by simp [hrest], ?_, hfollow.2, hh⟩
            exact decomposition_cons_iff.mpr
              ⟨front, rfl, Part.proper_lexeme_iff.mpr hl, hfollow.1, hd⟩
termination_by text => text.length
decreasing_by
  · exact Nat.lt_succ_self _
  · exact hlt

theorem Part.Proper.lexeme_ne_blank {token : Token} {lexeme : List Char} {c : Char}
    (hp : (Part.lexeme token lexeme).Proper) (hc : isBlank c = true) :
    lexeme ++ rest ≠ c :: rest' := by
  intro h
  obtain ⟨first, tail, rfl⟩ := List.exists_cons_of_ne_nil hp.text_ne_nil
  obtain ⟨hfirst, _⟩ := Token.next_append_of_lexeme (proper_lexeme_iff.mp hp) [] nofun
  rw [(List.cons.inj h).1, hc] at hfirst
  cases hfirst

/-- The part at the start of a text is the longest one. -/
theorem Part.Proper.eq_of_append_eq (hp : part.Proper) (ho : other.Proper)
    (h : part.text ++ rest = other.text ++ rest') (hr : ∀ c ∈ rest.head?, ¬ part.Absorbs c)
    (hr' : ∀ c ∈ rest'.head?, ¬ other.Absorbs c) : part = other ∧ rest = rest' := by
  cases part with
  | blank c =>
      cases other with
      | blank c' =>
          obtain ⟨rfl, rfl⟩ := List.cons.inj h
          exact ⟨rfl, rfl⟩
      | lexeme token lexeme => exact absurd h.symm (ho.lexeme_ne_blank hp)
  | lexeme token lexeme =>
      cases other with
      | blank c => exact absurd h (hp.lexeme_ne_blank ho)
      | lexeme token' lexeme' =>
          simp only [Part.text] at h
          obtain ⟨first, tail, rfl⟩ := List.exists_cons_of_ne_nil hp.text_ne_nil
          obtain ⟨first', tail', rfl⟩ := List.exists_cons_of_ne_nil ho.text_ne_nil
          obtain ⟨rfl, htail⟩ : first = first' ∧ tail ++ rest = tail' ++ rest' := List.cons.inj h
          obtain ⟨_, hnext⟩ := Token.next_append_of_lexeme (proper_lexeme_iff.mp hp) _ hr
          obtain ⟨_, hnext'⟩ := Token.next_append_of_lexeme (proper_lexeme_iff.mp ho) _ hr'
          rw [htail, hnext'] at hnext
          obtain ⟨rfl, hlength⟩ := Prod.mk.inj (Except.ok.inj hnext)
          obtain ⟨rfl, rfl⟩ := List.append_inj htail hlength.symm
          exact ⟨rfl, rfl⟩

/-- A text is decomposed in one way. -/
theorem Decomposition.unique (h : Decomposition text parts) (h' : Decomposition text others) :
    parts = others := by
  induction parts generalizing text others with
  | nil => exact (h'.eq_nil_iff.mpr (h.eq_nil_iff.mp rfl)).symm
  | cons part parts ih =>
      cases others with
      | nil => exact h.eq_nil_iff.mpr (h'.eq_nil_iff.mp rfl)
      | cons other others =>
          obtain ⟨rest, rfl, hp, hr, hd⟩ := decomposition_cons_iff.mp h
          obtain ⟨rest', htext, hp', hr', hd'⟩ := decomposition_cons_iff.mp h'
          obtain ⟨rfl, rfl⟩ := hp.eq_of_append_eq hp' htext hr hr'
          rw [ih hd hd']

theorem scan_of_decomposition (h : Decomposition text parts) (column : Nat) :
    Token.scan column text = .ok (parts.filterMap Part.token?) := by
  have hstops : Stops parts [] := fun _ _ => nofun
  have hscan := h.scan_append hstops column
  rw [List.append_nil, Token.scan_nil] at hscan
  rw [hscan]
  exact congrArg Except.ok (List.append_nil _)

theorem exists_decomposition_of_scan {column : Nat} {tokens : List Token}
    (h : Token.scan column text = .ok tokens) :
    ∃ parts, Decomposition text parts ∧ parts.filterMap Part.token? = tokens := by
  obtain ⟨front, parts, back, rfl, hd, hs, hh⟩ := exists_decomposition text
  cases back with
  | nil =>
      rw [List.append_nil] at h ⊢
      rw [scan_of_decomposition hd] at h
      exact ⟨parts, hd, Except.ok.inj h⟩
  | cons c rest =>
      obtain ⟨hc, fault, hn⟩ := hh c rest rfl
      rw [hd.scan_append hs, Token.scan_fault _ (by simp [hc]) hn] at h
      cases h

end

/-- A line has these tokens when it consists of blanks and of one lexeme for each of
them in order, none of which goes on with the character behind it. -/
theorem tokenize_eq_ok_iff (line : String) (tokens : List Token) :
    tokenize line = .ok tokens ↔
      ∃ parts, Decomposition line.toList parts ∧ parts.filterMap Part.token? = tokens := by
  constructor
  · intro h
    exact exists_decomposition_of_scan h
  · rintro ⟨parts, hd, rfl⟩
    exact scan_of_decomposition hd 0

/-- The second point begins a literal, and a numeral goes on with a name. -/
example : Decomposition "1.2.3 x²".toList [.lexeme (.number 1.2) "1.2".toList,
    .lexeme (.number 0.3) ".3".toList, .blank ' ', .lexeme (.identifier "x²") "x²".toList] where
  whole := by decide
  proper := by
    simp only [List.forall_mem_cons]
    refine ⟨⟨⟨?_, by decide, '1', by decide⟩, by decide +kernel⟩,
      ⟨⟨?_, by decide, '3', by decide⟩, by decide +kernel⟩, (by decide : isBlank ' ' = true),
      ⟨rfl, 'x', ['²'], by decide, by decide, List.all_eq_true.mp (by decide)⟩, nofun⟩
    · simp
    · simp
  longest := by
    simp [List.isChain_cons, Part.Absorbs, Token.Absorbs, Literal.GoesOn, Part.text]

end Reckoner
