import Reckoner.Proofs.Token.Separation
import Mathlib.Data.List.TakeWhile

/-! # Lexemes

A lexeme is a text that is read as one token: a literal of digits, a name, or a
single character. A token is read from a lexeme and nothing else. -/

namespace Reckoner

open Unicode

/-- The character is a token by itself. -/
def isPunctuation (c : Char) : Bool := (Token.ofPunctuation? c).isSome

namespace Unicode

/-- What begins a name is no blank, no digit and no point. -/
theorem isBlank_of_isAlphabetic {c : Char} (h : isAlphabetic c = true) : isBlank c = false := by
  rw [← Bool.not_eq_true]
  intro hb
  have ha := isAlphanumeric_of_isBlank hb
  rw [isAlphanumeric, h, Bool.true_or] at ha
  cases ha

theorem isDigit_of_isAlphabetic {c : Char} (h : isAlphabetic c = true) :
    c.isDigit = false ∧ c ≠ '.' := by
  have hd : ∀ range ∈ alphabetic, '9'.toNat < range.1 := by decide +kernel
  obtain ⟨range, hm, hl, _⟩ := Ranges.containsCode_sound h
  have hc : '9'.toNat < c.toNat := Nat.lt_of_lt_of_le (hd range hm) hl
  constructor
  · rw [← Bool.not_eq_true, Char.isDigit_iff_toNat]
    exact fun hdigit => Nat.not_le.mpr hc hdigit.2
  · rintro rfl
    revert hc
    decide

theorem isBlank_of_isDigit {c : Char} (h : (c.isDigit || c = '.') = true) : isBlank c = false := by
  rw [← Bool.not_eq_true]
  intro hb
  obtain ⟨hdigit, hpoint⟩ := isDigit_of_isBlank hb
  simp [hdigit, hpoint] at h

end Unicode

theorem Token.ofPunctuation?_symbol (op : Operator) :
    ofPunctuation? op.symbol = some (.operator op) := by
  cases op <;> rfl

/-- A token of one character is printed as that. -/
theorem Token.text_of_ofPunctuation? {c : Char} {token : Token}
    (h : ofPunctuation? c = some token) : token.isOperand = false ∧ token.text.toList = [c] := by
  unfold ofPunctuation? at h
  split at h
  · rename_i hc
    cases h
    exact ⟨rfl, by rw [hc]; rfl⟩
  · split at h
    · rename_i hc
      cases h
      exact ⟨rfl, by rw [hc]; rfl⟩
    · split at h
      · rename_i hc
        cases h
        exact ⟨rfl, by rw [hc]; rfl⟩
      · obtain ⟨op, hop, rfl⟩ := Option.map_eq_some_iff.mp h
        rw [← Operator.symbol_of_ofSymbol? hop]
        exact ⟨rfl, by simp [text]⟩

theorem Token.isOperand_of_ofPunctuation? {c : Char} {token : Token}
    (h : ofPunctuation? c = some token) : token.isOperand = false :=
  (text_of_ofPunctuation? h).1

theorem isPunctuation_of_ofPunctuation? {c : Char} {token : Token}
    (h : Token.ofPunctuation? c = some token) : isPunctuation c = true := by
  rw [isPunctuation, h]
  rfl

/-- The nine characters that are tokens by themselves. -/
theorem mem_of_isPunctuation {c : Char} (h : isPunctuation c = true) :
    c ∈ ['(', ')', '=', '+', '-', '*', '/', '%', '^'] := by
  simp only [isPunctuation, Token.ofPunctuation?, Operator.ofSymbol?] at h
  repeat' split at h
  all_goals simp_all

theorem breaks_of_isPunctuation {c : Char} (h : isPunctuation c = true) : Breaks c := by
  have hall : ['(', ')', '=', '+', '-', '*', '/', '%', '^'].all
      (fun c => !c.isDigit && c != '.' && !isAlphanumeric c) = true := by decide +kernel
  have hc := List.all_eq_true.mp hall c (mem_of_isPunctuation h)
  simp only [Bool.and_eq_true, Bool.not_eq_true', bne_iff_ne] at hc
  exact ⟨hc.1.1, hc.1.2, hc.2⟩

theorem breaks_of_ofPunctuation? {c : Char} {token : Token}
    (h : Token.ofPunctuation? c = some token) : Breaks c :=
  breaks_of_isPunctuation (isPunctuation_of_ofPunctuation? h)

theorem isBlank_of_isPunctuation {c : Char} (h : isPunctuation c = true) : isBlank c = false := by
  have hall : ['(', ')', '=', '+', '-', '*', '/', '%', '^'].all (!isBlank ·) = true := by decide
  simpa using List.all_eq_true.mp hall c (mem_of_isPunctuation h)

section Run

variable {α : Type} {p : α → Bool} {front back : List α}

/-- A longest run ends in front of an item that is not in it. -/
theorem takeWhile_append_of_stops (hf : ∀ item ∈ front, p item = true)
    (hb : ∀ item ∈ back.head?, p item = false) : (front ++ back).takeWhile p = front := by
  rw [List.takeWhile_append_of_pos hf]
  cases back with
  | nil => exact List.append_nil front
  | cons item back => rw [List.takeWhile_cons_of_neg (by simp [hb item rfl]), List.append_nil]

theorem dropWhile_append_of_stops (hf : ∀ item ∈ front, p item = true)
    (hb : ∀ item ∈ back.head?, p item = false) : (front ++ back).dropWhile p = back := by
  rw [List.dropWhile_append_of_pos hf]
  cases back with
  | nil => rfl
  | cons item back => exact List.dropWhile_cons_of_neg (by simp [hb item rfl])

theorem eq_false_of_head?_dropWhile {items : List α} {item : α}
    (h : item ∈ (items.dropWhile p).head?) : p item = false := by
  have hstop := List.head?_dropWhile_not p items
  rwa [Option.mem_def.mp h] at hstop

end Run

namespace Literal

/-- The literal consists of digits, and has no fraction without a point. -/
structure Proper (literal : Literal) : Prop where
  whole : ∀ c ∈ literal.whole, c.isDigit = true
  fraction : ∀ c ∈ literal.fraction, c.isDigit = true
  point : literal.point = false → literal.fraction = []

theorem Proper.digit_or_point {literal : Literal} (h : literal.Proper) {c : Char}
    (hc : c ∈ literal.chars) : (c.isDigit || c = '.') = true := by
  simp only [chars, List.mem_append] at hc
  rcases hc with (hw | hp) | hf
  · rw [h.whole c hw, Bool.true_or]
  · split at hp
    · simp [List.mem_singleton.mp hp]
    · cases hp
  · rw [h.fraction c hf, Bool.true_or]

/-- A literal with a value has a digit. -/
theorem chars_ne_nil {literal : Literal} {value : Float} (hv : literal.value? = some value) :
    literal.chars ≠ [] := by
  intro hn
  simp only [chars, List.append_eq_nil_iff] at hn
  simp [value?, Decimal.ofParts?, hn.1.1, hn.2] at hv

/-- What is read as a literal is one. -/
theorem proper_ofText (text : List Char) : (ofText text).Proper := by
  have hdigit (text : List Char) : ∀ c ∈ text.takeWhile Char.isDigit, c.isDigit = true :=
    fun c hm => List.mem_takeWhile_imp hm
  unfold ofText
  split
  · exact ⟨hdigit _, hdigit _, nofun⟩
  · exact ⟨hdigit _, nofun, fun _ => rfl⟩

theorem Proper.point_notMem_whole {literal : Literal} (h : literal.Proper) :
    '.' ∉ literal.whole :=
  fun hm => absurd (h.whole _ hm) (by decide)

theorem Proper.point_notMem_fraction {literal : Literal} (h : literal.Proper) :
    '.' ∉ literal.fraction :=
  fun hm => absurd (h.fraction _ hm) (by decide)

/-- The character goes on with the text of a literal: a digit, or a first point. -/
def GoesOn (text : List Char) (c : Char) : Prop := c.isDigit = true ∨ c = '.' ∧ '.' ∉ text

/-- A literal is read as what it is, in front of what does not go on with it. -/
theorem ofText_chars_append {literal : Literal} (h : literal.Proper) (rest : List Char)
    (hr : ∀ c ∈ rest.head?, ¬ GoesOn literal.chars c) :
    ofText (literal.chars ++ rest) = literal := by
  have hdigit : ∀ c ∈ rest.head?, c.isDigit = false := by
    intro c hc
    simpa using fun hd => hr c hc (.inl hd)
  have hpoint := h.point_notMem_whole
  obtain ⟨whole, point, fraction⟩ := literal
  obtain ⟨hw, hf, hp⟩ := h
  simp only at hw hf hp hpoint
  cases point with
  | true =>
      have hchars : chars ⟨whole, true, fraction⟩ ++ rest = whole ++ '.' :: (fraction ++ rest) := by
        simp [chars]
      have hmark : ∀ c ∈ ('.' :: (fraction ++ rest)).head?, c.isDigit = false := by simp
      rw [hchars, ofText, dropWhile_append_of_stops hw hmark, takeWhile_append_of_stops hw hmark]
      simp only [takeWhile_append_of_stops hf hdigit]
  | false =>
      obtain rfl := hp rfl
      have hchars : chars ⟨whole, false, []⟩ = whole := by simp [chars]
      rw [hchars, ofText, dropWhile_append_of_stops hw hdigit, takeWhile_append_of_stops hw hdigit]
      split
      · rw [hchars] at hr
        exact absurd (.inr ⟨rfl, hpoint⟩) (hr '.' rfl)
      · rfl

/-- What follows a literal does not go on with it. -/
theorem exists_rest (text : List Char) :
    ∃ rest, text = (ofText text).chars ++ rest ∧ ∀ c ∈ rest.head?, ¬ GoesOn (ofText text).chars c := by
  have hsplit := List.takeWhile_append_dropWhile (p := Char.isDigit) (l := text)
  cases hd : text.dropWhile Char.isDigit with
  | nil =>
      have hread : ofText text = ⟨text.takeWhile Char.isDigit, false, []⟩ := by simp only [ofText, hd]
      refine ⟨[], ?_, nofun⟩
      rw [hd] at hsplit
      simpa [hread, chars] using hsplit.symm
  | cons mark rest =>
      rw [hd] at hsplit
      by_cases hp : mark = '.'
      · subst hp
        have hread : ofText text =
            ⟨text.takeWhile Char.isDigit, true, rest.takeWhile Char.isDigit⟩ := by
          simp only [ofText, hd]
        refine ⟨rest.dropWhile Char.isDigit, ?_, ?_⟩
        · rw [hread]
          simpa [chars] using hsplit.symm
        · rintro c hc (hdigit | ⟨_, hn⟩)
          · rw [eq_false_of_head?_dropWhile hc] at hdigit
            cases hdigit
          · rw [hread] at hn
            exact hn (by simp [chars])
      · have hread : ofText text = ⟨text.takeWhile Char.isDigit, false, []⟩ := by
          simp only [ofText, hd]
          split
          · rename_i h
            exact absurd (List.cons.inj h).1 hp
          · rfl
        refine ⟨mark :: rest, ?_, ?_⟩
        · rw [hread]
          simpa [chars] using hsplit.symm
        · have hhead : mark ∈ (text.dropWhile Char.isDigit).head? := by
            rw [hd]
            rfl
          have hm := eq_false_of_head?_dropWhile hhead
          rintro c ⟨⟩ (hdigit | ⟨hc, _⟩)
          · rw [hm] at hdigit
            cases hdigit
          · exact hp hc

end Literal

namespace Token

/-- The texts that are read as a token. -/
inductive Lexeme : Token → List Char → Prop
  | number {literal : Literal} {value : Float} (hl : literal.Proper)
      (hv : literal.value? = some value) : Lexeme (.number value) literal.chars
  | name {first : Char} {rest : List Char} (hf : isAlphabetic first = true)
      (hr : ∀ c ∈ rest, isAlphanumeric c = true) :
      Lexeme (.identifier (String.ofList (first :: rest))) (first :: rest)
  | single {c : Char} {token : Token} (hc : ofPunctuation? c = some token) : Lexeme token [c]

theorem next_digit {c : Char} {rest : List Char} (hc : (c.isDigit || c = '.') = true) {value : Float}
    (hv : (Literal.ofText (c :: rest)).value? = some value) :
    next c rest = .ok (.number value, (Literal.ofText (c :: rest)).chars.length - 1) := by
  simp only [next, if_pos hc, hv]

theorem next_alphabetic {c : Char} (hc : isAlphabetic c = true) (rest : List Char) :
    next c rest = .ok (.identifier (String.ofList (c :: rest.takeWhile isAlphanumeric)),
      (rest.takeWhile isAlphanumeric).length) := by
  obtain ⟨hdigit, hpoint⟩ := isDigit_of_isAlphabetic hc
  simp [next, hdigit, hpoint, hc]

theorem next_punctuation {c : Char} {token : Token} (hc : ofPunctuation? c = some token)
    (rest : List Char) : next c rest = .ok (token, 0) := by
  have hb : Breaks c := breaks_of_ofPunctuation? hc
  have ha : isAlphabetic c = false := by
    have hname := hb.name
    rw [isAlphanumeric, Bool.or_eq_false_iff] at hname
    exact hname.1
  simp [next, hb.digit, hb.point, ha, hc]

theorem Lexeme.ne_nil {token : Token} {text : List Char} (h : Lexeme token text) : text ≠ [] := by
  cases h with
  | number _ hv => exact Literal.chars_ne_nil hv
  | name => exact List.cons_ne_nil _ _
  | single => exact List.cons_ne_nil _ _

/-- The character goes on with a lexeme of the token: a digit with a number, a point
with a number that has none, a letter or a numeral with a name. -/
def Absorbs (token : Token) (text : List Char) (c : Char) : Prop :=
  match token with
  | .number _ => Literal.GoesOn text c
  | .identifier _ => isAlphanumeric c = true
  | _ => False

theorem not_absorbs_of_not_isOperand {token : Token} (h : token.isOperand = false)
    (text : List Char) (c : Char) : ¬ token.Absorbs text c := by
  cases token with
  | number | identifier => cases h
  | _ => exact id

/-- A lexeme begins a token that takes all of it, and nothing that does not go on with it. -/
theorem next_append_of_lexeme {token : Token} {c : Char} {text : List Char}
    (h : Lexeme token (c :: text)) (rest : List Char)
    (hr : ∀ c' ∈ rest.head?, ¬ token.Absorbs (c :: text) c') :
    isBlank c = false ∧ next c (text ++ rest) = .ok (token, text.length) := by
  generalize ht : c :: text = lexeme at h hr
  cases h with
  | @number literal value hl hv =>
      have hread := Literal.ofText_chars_append hl rest hr
      rw [← ht, List.cons_append] at hread
      have hc : (c.isDigit || c = '.') = true :=
        hl.digit_or_point (ht ▸ List.mem_cons_self)
      refine ⟨isBlank_of_isDigit hc, ?_⟩
      rw [next_digit hc (by rw [hread]; exact hv), hread, ← ht]
      rfl
  | @name first tail hf ha =>
      obtain ⟨rfl, rfl⟩ := List.cons.inj ht
      refine ⟨isBlank_of_isAlphabetic hf, ?_⟩
      rw [next_alphabetic hf, takeWhile_append_of_stops ha fun c' hc => Bool.eq_false_iff.mpr (hr c' hc)]
  | single hc =>
      obtain ⟨rfl, rfl⟩ := List.cons.inj ht
      exact ⟨isBlank_of_isPunctuation (isPunctuation_of_ofPunctuation? hc), next_punctuation hc _⟩

/-- The characters that a token takes are a lexeme of it, and the next one does not go on
with it. -/
theorem exists_lexeme_of_next {c : Char} {rest : List Char} {token : Token} {taken : Nat}
    (h : next c rest = .ok (token, taken)) :
    ∃ text back, rest = text ++ back ∧ text.length = taken ∧ Lexeme token (c :: text) ∧
      ∀ c' ∈ back.head?, ¬ token.Absorbs (c :: text) c' := by
  unfold next at h
  split at h
  · simp only at h
    split at h
    · rename_i value hv
      cases h
      obtain ⟨back, hback, hstops⟩ := Literal.exists_rest (c :: rest)
      obtain ⟨first, text, htext⟩ := List.exists_cons_of_ne_nil (Literal.chars_ne_nil hv)
      have hl := Lexeme.number (Literal.proper_ofText (c :: rest)) hv
      rw [htext, List.cons_append] at hback
      obtain ⟨rfl, rfl⟩ := List.cons.inj hback
      refine ⟨text, back, rfl, ?_, htext ▸ hl, htext ▸ hstops⟩
      rw [htext, List.length_cons, Nat.add_sub_cancel]
    · cases h
  · split at h
    · rename_i hc
      cases h
      refine ⟨rest.takeWhile isAlphanumeric, rest.dropWhile isAlphanumeric,
        List.takeWhile_append_dropWhile.symm, rfl, ?_, ?_⟩
      · exact .name hc fun other hm => List.mem_takeWhile_imp hm
      · intro c' hc' ha
        rw [Absorbs, eq_false_of_head?_dropWhile hc'] at ha
        cases ha
    · split at h
      · rename_i hc
        cases h
        exact ⟨[], rest, rfl, rfl, .single hc, fun c' _ =>
          not_absorbs_of_not_isOperand (isOperand_of_ofPunctuation? hc) _ c'⟩
      · cases h

theorem lexeme_text_of_not_isOperand {token : Token} (h : token.isOperand = false) :
    Lexeme token token.text.toList := by
  cases token with
  | number | identifier => cases h
  | operator op =>
      have ht : (operator op).text.toList = [op.symbol] := by simp [text]
      rw [ht]
      exact .single (ofPunctuation?_symbol op)
  | leftParen | rightParen | assign => exact .single rfl

/-- A line of one lexeme is one token. -/
theorem scan_lexeme (column : Nat) {token : Token} {text : List Char} (h : Lexeme token text) :
    scan column text = .ok [token] := by
  obtain ⟨c, rest, rfl⟩ := List.exists_cons_of_ne_nil h.ne_nil
  obtain ⟨hc, hn⟩ := next_append_of_lexeme h [] nofun
  rw [List.append_nil] at hn
  rw [scan_token column (by rw [hc]; decide) hn, List.drop_length, scan_nil]
  rfl

/-- Every token of a line has been read from a lexeme. -/
theorem exists_lexeme_of_scan {column : Nat} {text : List Char} {tokens : List Token}
    (h : scan column text = .ok tokens) : ∀ token ∈ tokens, ∃ lexeme, Lexeme token lexeme := by
  induction column, text using scan.induct generalizing tokens with
  | case1 column =>
      rw [scan_nil] at h
      cases h
      intro token hm
      cases hm
  | case2 column c rest hc ih =>
      rw [scan_blank _ hc] at h
      exact ih h
  | case3 column c rest hc fault hn =>
      rw [scan_fault _ hc hn] at h
      cases h
  | case4 column c rest hc token taken hn ih =>
      rw [scan_token _ hc hn] at h
      cases hs : scan (column + 1 + taken) (rest.drop taken) with
      | error fault =>
          rw [hs] at h
          cases h
      | ok others =>
          rw [hs] at h
          cases h
          obtain ⟨lexeme, _, _, _, hl, _⟩ := exists_lexeme_of_next hn
          exact List.forall_mem_cons.mpr ⟨⟨_, hl⟩, ih hs⟩

end Token
end Reckoner
