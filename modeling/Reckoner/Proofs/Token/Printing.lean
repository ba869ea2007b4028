import Reckoner.Proofs.Number.Shortest
import Reckoner.Proofs.Token.Lexeme

/-! # Tokens are read as they are printed

The digits of a decimal are a literal that stands for this decimal alone, so a
finite number without a sign is read from its text, and so is every token that a
line can have. With single spaces between them no two tokens run together. -/

namespace Reckoner

open Unicode Binary64

namespace Decimal

/-- The literal that a decimal is printed as. -/
def literal (d : Decimal) : Literal where
  whole := Nat.toDigits 10 (d.coefficient / Nat.pow 10 d.places)
  point := decide (d.places ≠ 0)
  fraction :=
    if d.places = 0 then []
    else (Nat.toDigits 10 (d.coefficient % Nat.pow 10 d.places)).leftpad d.places '0'

@[simp] theorem chars_literal (d : Decimal) : d.literal.chars = d.digits := by
  by_cases hp : d.places = 0 <;> simp [Literal.chars, literal, digits, hp]

theorem proper_literal (d : Decimal) : d.literal.Proper where
  whole _ hc := Nat.isDigit_of_mem_toDigits (by decide) (by decide) hc
  fraction c hc := by
    simp only [literal] at hc
    split at hc
    · cases hc
    · rcases List.mem_append.mp hc with hzero | hdigit
      · rw [List.eq_of_mem_replicate hzero]
        rfl
      · exact Nat.isDigit_of_mem_toDigits (by decide) (by decide) hdigit
  point hp := by
    simp only [literal, decide_eq_false_iff_not, not_not] at hp ⊢
    exact if_pos hp

/-- There is one digit in the fraction for each place. -/
theorem length_fraction (d : Decimal) : d.literal.fraction.length = d.places := by
  simp only [literal]
  split
  · rename_i hp
    rw [hp]
    rfl
  · rename_i hp
    have hlt : d.coefficient % 10 ^ d.places < 10 ^ d.places :=
      Nat.mod_lt _ (Nat.pow_pos (by decide))
    have hle := (Nat.length_toDigits_le_iff (by decide) (Nat.pos_of_ne_zero hp)).mpr hlt
    exact (List.length_leftpad ..).trans (Nat.max_eq_left hle)

theorem ofDigitChars_fraction (d : Decimal) :
    Nat.ofDigitChars 10 d.literal.fraction 0 = d.coefficient % 10 ^ d.places := by
  simp only [literal]
  split
  · rename_i hp
    simp [hp, Nat.mod_one]
  · rw [List.leftpad, Nat.ofDigitChars_append, Nat.ofDigitChars_replicate_zero, Nat.mul_zero]
    exact Nat.ofDigitChars_ten_toDigits

/-- Read without its point a decimal is its coefficient. -/
theorem ofDigitChars_literal (d : Decimal) :
    Nat.ofDigitChars 10 (d.literal.whole ++ d.literal.fraction) 0 = d.coefficient := by
  have hw : Nat.ofDigitChars 10 d.literal.whole 0 = d.coefficient / 10 ^ d.places :=
    Nat.ofDigitChars_ten_toDigits
  rw [Nat.ofDigitChars_append, Nat.ofDigitChars_eq_ofDigitChars_zero, ofDigitChars_fraction, hw,
    length_fraction]
  exact Nat.div_add_mod d.coefficient (10 ^ d.places)

theorem value?_literal (d : Decimal) : d.literal.value? = some d.toFloat := by
  have hne : d.literal.whole.isEmpty = false := by
    simp [literal, Nat.toDigits_ne_nil]
  simp [Literal.value?, ofParts?, hne, ofDigitChars_literal, length_fraction]

end Decimal

namespace Token

/-- The token is a finite number without a sign, a name, or punctuation. -/
def Printable : Token → Prop
  | .number value => ∃ units, ofFloat value = .finite false units
  | .identifier name => ∃ first rest, name.toList = first :: rest ∧ isAlphabetic first = true ∧
      ∀ c ∈ rest, isAlphanumeric c = true
  | _ => True

/-- Such a token is printed as a lexeme of itself. -/
theorem Printable.lexeme {token : Token} (h : token.Printable) : Lexeme token token.text.toList := by
  cases token with
  | number value =>
      obtain ⟨units, hu⟩ := h
      obtain ⟨d, ht, rfl⟩ := exists_decimal_of_ofFloat hu
      rw [text, ht, Decimal.text, String.toList_ofList, ← d.chars_literal]
      exact .number d.proper_literal d.value?_literal
  | identifier name =>
      obtain ⟨first, rest, hn, hf, hr⟩ := h
      have hl := Lexeme.name hf hr
      rw [← hn, String.ofList_toList] at hl
      exact hl
  | operator | leftParen | rightParen | assign => exact lexeme_text_of_not_isOperand rfl

/-- What is read is printable, unless it is a literal that is too large. -/
theorem Lexeme.printable {token : Token} {text : List Char} (h : Lexeme token text)
    (hi : ∀ value, token = .number value → ofFloat value ≠ .infinite false) : token.Printable := by
  cases h with
  | @number literal value _ hv =>
      obtain ⟨d, _, rfl⟩ := Option.map_eq_some_iff.mp hv
      exact (ofFloat_toFloat d).resolve_right (hi _ rfl)
  | @name first rest hf hr => exact ⟨first, rest, String.toList_ofList, hf, hr⟩
  | single hc =>
      have ho := isOperand_of_ofPunctuation? hc
      cases token with
      | number | identifier => cases ho
      | _ => trivial

end Token

/-- Tokens printed with single spaces between them. -/
def written (tokens : List Token) : String :=
  " ".intercalate (tokens.map Token.text)

theorem written_append {first second : List Token} (hf : first ≠ []) (hs : second ≠ []) :
    written (first ++ second) = written first ++ " " ++ written second := by
  rw [written, List.map_append]
  apply String.intercalate_append_of_ne_nil
  · exact mt List.map_eq_nil_iff.mp hf
  · exact mt List.map_eq_nil_iff.mp hs

theorem toList_written_cons (token other : Token) (rest : List Token) :
    (written (token :: other :: rest)).toList =
      token.text.toList ++ ' ' :: (written (other :: rest)).toList := by
  simp [written, String.toList_intercalate]

/-- A space keeps each token from the next one. -/
theorem scan_written (column : Nat) {tokens : List Token} (h : ∀ token ∈ tokens, token.Printable) :
    Token.scan column (written tokens).toList = .ok tokens := by
  induction tokens generalizing column with
  | nil =>
      have hn : (written []).toList = [] := by simp [written]
      rw [hn, Token.scan_nil]
  | cons token rest ih =>
      obtain ⟨hl, hr⟩ := List.forall_mem_cons.mp h
      cases rest with
      | nil =>
          have hs : written [token] = token.text := by simp [written]
          rw [hs]
          exact Token.scan_lexeme column hl.lexeme
      | cons other rest =>
          rw [toList_written_cons, Token.scan_append column _ (by decide),
            Token.scan_lexeme column hl.lexeme, Token.scan_blank _ (by decide), ih _ hr]
          rfl

/-- Printable tokens are read back from their texts with single spaces between
them. The tokens of a line are printable, unless one of its literals is too large
for a double. -/
theorem tokenize_written :
    (∀ tokens, (∀ token ∈ tokens, token.Printable) → tokenize (written tokens) = .ok tokens) ∧
    ∀ line tokens, tokenize line = .ok tokens →
      (∀ value, .number value ∈ tokens → ofFloat value ≠ .infinite false) →
      tokenize (written tokens) = .ok tokens := by
  refine ⟨fun tokens h => scan_written 0 h, ?_⟩
  intro line tokens ht hi
  apply scan_written 0
  intro token hm
  obtain ⟨lexeme, hl⟩ := Token.exists_lexeme_of_scan ht token hm
  apply hl.printable
  rintro value rfl
  exact hi value hm

/-- Without the spaces two numbers, and two names, would be read as one. -/
theorem tokenize_written_neighbours :
    (∀ token ∈ [.number 1.5, .number 0.5, .identifier "é2", .identifier "x"], Token.Printable token) ∧
    tokenize (written [.number 1.5, .number 0.5, .identifier "é2", .identifier "x"]) =
      .ok [.number 1.5, .number 0.5, .identifier "é2", .identifier "x"] := by
  have h : ∀ token ∈ [.number 1.5, .number 0.5, .identifier "é2", .identifier "x"],
      Token.Printable token := by
    simp only [List.forall_mem_cons]
    refine ⟨?_, ?_, ?_, ?_, nofun⟩
    · exact ⟨unitsOfBits 0x3ff8000000000000, by decide +kernel⟩
    · exact ⟨unitsOfBits 0x3fe0000000000000, by decide +kernel⟩
    · exact ⟨'é', ['2'], rfl, by decide, List.all_eq_true.mp (by decide)⟩
    · exact ⟨'x', [], rfl, by decide, nofun⟩
  exact ⟨h, tokenize_written.1 _ h⟩

end Reckoner
