import Reckoner.Proofs.Token.Cuts
import Reckoner.Proofs.Token.Decomposition

/-! # Where a line cannot be read

A fault stands behind a text that can be read and in front of a character that does
not go on with the last token of this text, and begins none: a stray character, or
a point without a digit behind it. -/

namespace Reckoner

open Unicode

/-- The character begins no token and is no blank. -/
structure Stray (c : Char) : Prop where
  blank : isBlank c = false
  digit : c.isDigit = false
  point : c ≠ '.'
  letter : isAlphabetic c = false
  sign : c ∉ ['(', ')', '=', '+', '-', '*', '/', '%', '^']

/-- The token at the end of the text goes on with the character. -/
def Absorbed (text : List Char) (c : Char) : Prop :=
  ∃ parts, Decomposition text parts ∧ ∃ part ∈ parts.getLast?, part.Absorbs c

/-- The text in front of the column can be read, and its last token does not go on
with the character. -/
structure EndsAt (text : List Char) (column : Nat) (c : Char) : Prop where
  read : ∃ tokens, tokenize (String.ofList (text.take column)) = .ok tokens
  ends : ¬ Absorbed (text.take column) c

theorem isPunctuation_eq_false_iff {c : Char} :
    isPunctuation c = false ↔ c ∉ ['(', ')', '=', '+', '-', '*', '/', '%', '^'] := by
  have hall : ['(', ')', '=', '+', '-', '*', '/', '%', '^'].all isPunctuation = true := by decide
  rw [← Bool.not_eq_true]
  exact not_congr ⟨mem_of_isPunctuation, List.all_eq_true.mp hall c⟩

namespace Literal

theorem ofText_point (rest : List Char) :
    ofText ('.' :: rest) = ⟨[], true, rest.takeWhile Char.isDigit⟩ := rfl

theorem whole_ofText_digit {c : Char} (hc : c.isDigit = true) (rest : List Char) :
    (ofText (c :: rest)).whole = c :: rest.takeWhile Char.isDigit := by
  unfold ofText
  split <;> exact List.takeWhile_cons_of_pos hc

theorem value?_eq_none_iff {literal : Literal} :
    literal.value? = none ↔ literal.whole = [] ∧ literal.fraction = [] := by
  simp [value?, Decimal.ofParts?]

/-- Of what is read as a literal only a lone point has no value. -/
theorem value?_ofText_eq_none_iff {c : Char} (hc : (c.isDigit || c = '.') = true)
    (rest : List Char) : (ofText (c :: rest)).value? = none ↔
      c = '.' ∧ ∀ d ∈ rest.head?, d.isDigit = false := by
  rw [value?_eq_none_iff]
  by_cases hdigit : c.isDigit = true
  · have hne : c ≠ '.' := by
      rintro rfl
      exact absurd hdigit (by decide)
    simp [whole_ofText_digit hdigit, hne]
  · obtain rfl : c = '.' := by simpa [hdigit] using hc
    cases rest with
    | nil => simp [ofText_point]
    | cons d rest => simp [ofText_point, List.takeWhile_cons]

theorem chars_ofText_point {rest : List Char} (h : ∀ d ∈ rest.head?, d.isDigit = false) :
    (ofText ('.' :: rest)).chars = ['.'] := by
  have hnone := (value?_ofText_eq_none_iff (by decide) rest).mpr ⟨rfl, h⟩
  have hfraction : rest.takeWhile Char.isDigit = [] := (value?_eq_none_iff.mp hnone).2
  rw [ofText_point, hfraction]
  rfl

end Literal

namespace Token

/-- Only a point without a digit behind it and a stray character are faults. -/
theorem next_eq_error_iff {c : Char} {rest : List Char} {fault : Nat → TokenError}
    (hb : isBlank c = false) : next c rest = .error fault ↔
      Stray c ∧ fault = .strayCharacter c ∨
        c = '.' ∧ (∀ d ∈ rest.head?, d.isDigit = false) ∧ fault = .badLiteral "." := by
  constructor
  · intro h
    unfold next at h
    split at h
    · rename_i hc
      simp only at h
      split at h
      · cases h
      · rename_i hv
        cases h
        obtain ⟨rfl, hrest⟩ := (Literal.value?_ofText_eq_none_iff hc rest).mp hv
        exact .inr ⟨rfl, hrest, by rw [Literal.chars_ofText_point hrest]⟩
    · rename_i hc
      simp only [Bool.or_eq_true, decide_eq_true_eq, not_or, Bool.not_eq_true] at hc
      split at h
      · cases h
      · rename_i ha
        split at h
        · cases h
        · rename_i hp
          cases h
          have hsign : isPunctuation c = false := by rw [isPunctuation, hp]; rfl
          exact .inl ⟨⟨hb, hc.1, hc.2, by simpa using ha, isPunctuation_eq_false_iff.mp hsign⟩, rfl⟩
  · rintro (⟨hc, rfl⟩ | ⟨rfl, hrest, rfl⟩)
    · have hsign : ofPunctuation? c = none := by
        simpa [isPunctuation] using isPunctuation_eq_false_iff.mpr hc.sign
      simp [next, hc.digit, hc.point, hc.letter, hsign]
    · have hnone := (Literal.value?_ofText_eq_none_iff (by decide) rest).mpr ⟨rfl, hrest⟩
      rw [next, if_pos (by decide)]
      simp only [hnone, Literal.chars_ofText_point hrest]

end Token

theorem drop_eq_cons_iff {α : Type} {items rest : List α} {item : α} {place : Nat} :
    items.drop place = item :: rest ↔
      items[place]? = some item ∧ items.drop (place + 1) = rest := by
  constructor
  · intro h
    constructor
    · rw [← List.head?_drop, h, List.head?_cons]
    · rw [← List.tail_drop, h, List.tail_cons]
  · rintro ⟨hat, rfl⟩
    obtain ⟨hlt, rfl⟩ := List.getElem?_eq_some_iff.mp hat
    exact List.drop_eq_getElem_cons hlt

/-- The fault of a text is that of the token that should begin at its column. -/
theorem scan_eq_error_iff {text : List Char} {fault : TokenError} :
    Token.scan 0 text = .error fault ↔ ∃ c rest raised, text.drop fault.column = c :: rest ∧
      EndsAt text fault.column c ∧ isBlank c = false ∧ Token.next c rest = .error raised ∧
      raised fault.column = fault := by
  constructor
  · intro h
    obtain ⟨front, parts, back, rfl, hd, hs, hh⟩ := exists_decomposition text
    cases back with
    | nil =>
        rw [List.append_nil, scan_of_decomposition hd] at h
        cases h
    | cons c rest =>
        obtain ⟨hc, raised, hn⟩ := hh c rest rfl
        rw [hd.scan_append hs, Token.scan_fault _ (by simp [hc]) hn, Nat.zero_add] at h
        obtain rfl := Except.error.inj h
        rw [Token.column_of_next hn]
        refine ⟨c, rest, raised, List.drop_left, ⟨⟨parts.filterMap Part.token?, ?_⟩, ?_⟩, hc, hn, rfl⟩
        · rw [tokenize, String.toList_ofList, List.take_left]
          exact scan_of_decomposition hd 0
        · rintro ⟨others, hd', part, hp, ha⟩
          rw [List.take_left] at hd'
          obtain rfl := hd.unique hd'
          exact hs part hp c rfl ha
  · rintro ⟨c, rest, raised, hdrop, ⟨⟨tokens, hread⟩, hends⟩, hc, hn, hfault⟩
    rw [tokenize, String.toList_ofList] at hread
    obtain ⟨parts, hd, _⟩ := exists_decomposition_of_scan hread
    have hs : Stops parts (c :: rest) := by
      rintro part hp c' ⟨⟩ ha
      exact hends ⟨parts, hd, part, hp, ha⟩
    have hlength : (text.take fault.column).length = fault.column := by
      rw [List.length_take]
      have hlt : 0 < (text.drop fault.column).length := by simp [hdrop]
      rw [List.length_drop] at hlt
      omega
    have hscan := hd.scan_append hs 0
    rw [← hdrop, List.take_append_drop, hdrop, Token.scan_fault _ (by simp [hc]) hn,
      hlength, Nat.zero_add, hfault] at hscan
    exact hscan

/-- A character that begins no token is a fault when the text in front of it can be read and
does not go on with it, whatever stands behind it. So is a point that no digit follows, and
no other literal. -/
theorem tokenize_eq_error_iff (line : String) (column : Nat) :
    (∀ c, tokenize line = .error (.strayCharacter c column) ↔
      line.toList[column]? = some c ∧ Stray c ∧ EndsAt line.toList column c) ∧
    ∀ literal, tokenize line = .error (.badLiteral literal column) ↔
      literal = "." ∧ line.toList[column]? = some '.' ∧
        (∀ c ∈ line.toList[column + 1]?, c.isDigit = false) ∧ EndsAt line.toList column '.' := by
  constructor
  · intro c
    constructor
    · intro h
      obtain ⟨c', rest, raised, hdrop, hends, hc, hn, hfault⟩ := scan_eq_error_iff.mp h
      rcases (Token.next_eq_error_iff hc).mp hn with ⟨hstray, rfl⟩ | ⟨_, _, rfl⟩
      · obtain rfl := (TokenError.strayCharacter.inj hfault).1
        exact ⟨(drop_eq_cons_iff.mp hdrop).1, hstray, hends⟩
      · cases hfault
    · rintro ⟨hat, hstray, hends⟩
      exact scan_eq_error_iff.mpr ⟨c, _, .strayCharacter c, drop_eq_cons_iff.mpr ⟨hat, rfl⟩, hends,
        hstray.blank, (Token.next_eq_error_iff hstray.blank).mpr (.inl ⟨hstray, rfl⟩), rfl⟩
  · intro literal
    have hpoint : isBlank '.' = false := by decide
    constructor
    · intro h
      obtain ⟨c, rest, raised, hdrop, hends, hc, hn, hfault⟩ := scan_eq_error_iff.mp h
      rcases (Token.next_eq_error_iff hc).mp hn with ⟨_, rfl⟩ | ⟨rfl, hrest, rfl⟩
      · cases hfault
      · obtain rfl := (TokenError.badLiteral.inj hfault).1
        obtain ⟨hat, rfl⟩ := drop_eq_cons_iff.mp hdrop
        rw [List.head?_drop] at hrest
        exact ⟨rfl, hat, hrest, hends⟩
    · rintro ⟨rfl, hat, hrest, hends⟩
      rw [← List.head?_drop] at hrest
      exact scan_eq_error_iff.mpr ⟨'.', _, .badLiteral ".", drop_eq_cons_iff.mpr ⟨hat, rfl⟩, hends,
        hpoint, (Token.next_eq_error_iff hpoint).mpr (.inr ⟨rfl, hrest, rfl⟩), rfl⟩

/-- A numeral goes on with a name but not with a number, and a literal takes one point. -/
example : tokenize "x² + 2²" = .error (.strayCharacter '²' 6) ∧
    tokenize "1.5." = .error (.badLiteral "." 3) := by
  decide +kernel

end Reckoner
