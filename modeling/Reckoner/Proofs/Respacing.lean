import Reckoner.Proofs.Token.PieceReading
import Reckoner.Proofs.Words
import Reckoner.Respacing

/-! # A respaced line

Spaces are written and taken away only where a piece ends, so a respaced line has
the pieces of the line, and is read as the line is. -/

namespace Reckoner

open Unicode
open Text (isBlank_space)

namespace Respacing

variable {written : List Char} {c : Char}

/-- The pieces of what has been written, which is kept backwards. -/
def behind (written : List Char) : Pieces :=
  written.foldr (fun c p => p.take c) .start

theorem behind_cons (c : Char) (written : List Char) :
    behind (c :: written) = (behind written).take c := rfl

theorem behind_space (written : List Char) : behind (' ' :: written) = (behind written).close :=
  Pieces.take_of_isBlank _ isBlank_space

/-- A word has ended behind a character that is a token by itself. -/
theorem close_take_of_isPunctuation (p : Pieces) (h : isPunctuation c = true) :
    (p.take c).close = p.take c :=
  Pieces.close_of_word_eq_nil (Pieces.word_take_of_ends p (.inr h))

theorem take_close_of_isPunctuation (p : Pieces) (h : isPunctuation c = true) :
    p.close.take c = p.take c := by
  rw [p.take_of_isPunctuation h, p.close.take_of_isPunctuation h, p.close_close]

/-- A gap ends the word in front of it, if there is one, and is no piece. -/
theorem behind_gap (written : List Char) : behind (gap written) = (behind written).close := by
  unfold gap
  split
  · exact behind_space written
  · rename_i hw
    cases written with
    | nil => rfl
    | cons last written =>
        have hlast : last = ' ' ∨ last = '(' := by
          simp only [wantsGap, Bool.and_eq_true, decide_eq_true_eq, not_and, not_not] at hw
          exact or_iff_not_imp_left.mpr hw
        rcases hlast with rfl | rfl
        · rw [behind_space, Pieces.close_close]
        · have hp : isPunctuation '(' = true := rfl
          exact (close_take_of_isPunctuation (behind written) hp).symm

/-- Taking spaces away leaves the pieces that have ended. -/
theorem close_behind_dropWhile (written : List Char) :
    (behind (written.dropWhile (· = ' '))).close = (behind written).close := by
  induction written with
  | nil => rfl
  | cons last written ih =>
      rw [List.dropWhile_cons]
      split
      · rename_i hlast
        rw [ih, of_decide_eq_true hlast, behind_space, Pieces.close_close]
      · rfl

theorem isPunctuation_of_isInfix (h : isInfix c = true) : isPunctuation c = true := by
  unfold isInfix at h
  unfold isPunctuation Token.ofPunctuation?
  repeat' split
  · rfl
  · rfl
  · rfl
  · rename_i hassign
    simpa [hassign] using h

theorem isBlank_of_isInfix (h : isInfix c = true) : isBlank c = false :=
  isBlank_of_isPunctuation (isPunctuation_of_isInfix h)

theorem isInfix_of_isBlank (h : isBlank c = true) : isInfix c = false := by
  rw [← Bool.not_eq_true]
  intro hc
  rw [isBlank_of_isInfix hc] at h
  cases h

theorem isInfix_space : isInfix ' ' = false := by decide

theorem isInfix_open : isInfix '(' = false := by decide

theorem isInfix_close : isInfix ')' = false := by decide

theorem isBlank_open : isBlank '(' = false := by decide

theorem isBlank_close : isBlank ')' = false := by decide

/-- The character stands for itself: it is no sign, no parenthesis and no blank. -/
structure Plain (c : Char) : Prop where
  sign : isInfix c = false
  opens : c ≠ '('
  closes : c ≠ ')'
  blank : isBlank c = false

theorem cases_char (c : Char) :
    isInfix c = true ∨ c = '(' ∨ c = ')' ∨ isBlank c = true ∨ Plain c := by
  by_cases hs : isInfix c = true
  · exact .inl hs
  by_cases ho : c = '('
  · exact .inr (.inl ho)
  by_cases hc : c = ')'
  · exact .inr (.inr (.inl hc))
  by_cases hb : isBlank c = true
  · exact .inr (.inr (.inr (.inl hb)))
  · exact .inr (.inr (.inr (.inr ⟨by simpa using hs, ho, hc, by simpa using hb⟩)))

theorem write_sign (h : isInfix c = true) : write written c = ' ' :: c :: gap written :=
  if_pos h

theorem write_open : write written '(' = '(' :: gap written := rfl

theorem write_close : write written ')' = ')' :: written.dropWhile (· = ' ') := rfl

theorem write_blank (h : isBlank c = true) : write written c = gap written := by
  have ho : c ≠ '(' := ne_of_apply_ne isBlank (by rw [h, isBlank_open]; decide)
  have hc : c ≠ ')' := ne_of_apply_ne isBlank (by rw [h, isBlank_close]; decide)
  simp [write, isInfix_of_isBlank h, ho, hc, h]

theorem write_plain (h : Plain c) : write written c =
    if written.head? = some ')' then c :: ' ' :: written else c :: written := by
  simp [write, h.sign, h.opens, h.closes, h.blank]

/-- A character is written with nothing but spaces around it. -/
theorem behind_write (written : List Char) (c : Char) :
    behind (write written c) = (behind written).take c := by
  rcases cases_char c with hc | rfl | rfl | hc | hc
  · have hp := isPunctuation_of_isInfix hc
    rw [write_sign hc, behind_space, behind_cons, behind_gap, take_close_of_isPunctuation _ hp,
      close_take_of_isPunctuation _ hp]
  · have hp : isPunctuation '(' = true := rfl
    rw [write_open, behind_cons, behind_gap, take_close_of_isPunctuation _ hp]
  · have hp : isPunctuation ')' = true := rfl
    rw [write_close, behind_cons, ← take_close_of_isPunctuation _ hp, close_behind_dropWhile,
      take_close_of_isPunctuation _ hp]
  · rw [write_blank hc, behind_gap, Pieces.take_of_isBlank _ hc]
  · rw [write_plain hc]
    split
    · rename_i hh
      obtain ⟨front, rfl⟩ := List.head?_eq_some_iff.mp hh
      have hp : isPunctuation ')' = true := rfl
      rw [behind_cons, behind_space, behind_cons, close_take_of_isPunctuation _ hp]
    · rfl

theorem behind_foldl_write (written text : List Char) :
    behind (text.foldl write written) = text.foldl Pieces.take (behind written) := by
  induction text generalizing written with
  | nil => rfl
  | cons c text ih => rw [List.foldl_cons, ih, behind_write, List.foldl_cons]

theorem close_foldl_unwords_cons (word : List Char) (others : List (List Char)) (p : Pieces) :
    ((Text.unwords (word :: others)).foldl Pieces.take p).close =
      ((Text.unwords others).foldl Pieces.take (word.foldl Pieces.take p).close).close := by
  rw [Text.unwords]
  by_cases hn : others = []
  · rw [hn, List.intercalate_singleton, Text.unwords, List.intercalate_nil, List.foldl_nil,
      Pieces.close_close]
  · rw [List.intercalate_cons_of_ne_nil hn, List.foldl_append, List.foldl_append, List.foldl_cons,
      List.foldl_nil, Pieces.take_of_isBlank _ isBlank_space, Text.unwords]

/-- Cutting a text into words and joining them again changes blanks only. -/
theorem close_foldl_unwords (current text : List Char) {p : Pieces} (hp : p.close = p) :
    ((Text.unwords (Text.wordsFrom current text)).foldl Pieces.take p).close =
      ((current.reverse ++ text).foldl Pieces.take p).close := by
  -- `current` is the word begun so far. What stands in front of it has been closed.
  induction text generalizing current p with
  | nil =>
      rw [Text.wordsFrom]
      split
      · rename_i h
        rw [List.isEmpty_iff.mp h]
        rfl
      · rw [Text.unwords, List.intercalate_singleton, List.append_nil]
  | cons c text ih =>
      rw [Text.wordsFrom]
      split
      · rename_i hb
        split
        · rename_i h
          rw [ih [] hp, List.isEmpty_iff.mp h, List.reverse_nil, List.nil_append, List.nil_append,
            List.foldl_cons, Pieces.take_of_isBlank p hb, hp]
        · rw [close_foldl_unwords_cons, ih [] (Pieces.close_close _), List.reverse_nil,
            List.nil_append, List.foldl_append, List.foldl_cons, Pieces.take_of_isBlank _ hb]
      · rw [ih (c :: current) hp, List.reverse_cons, List.append_assoc, List.singleton_append]

theorem pieces_respaceChars (text : List Char) : pieces (respaceChars text) = pieces text := by
  have hwritten : (text.foldl write []).reverse.foldl Pieces.take .start =
      text.foldl Pieces.take .start := by
    rw [List.foldl_reverse]
    exact behind_foldl_write [] text
  rw [pieces, respaceChars, Text.words, close_foldl_unwords [] _ rfl, List.reverse_nil,
    List.nil_append, hwritten, pieces]

end Respacing

/-- A respaced line has the characters of the line in their order, blanks aside. It has the
tokens of the line, or else its fault, moved with the character at which it stands. -/
theorem tokenize_respace (line : String) :
    solid (respace line).toList = solid line.toList ∧
      match tokenize line with
      | .ok tokens => tokenize (respace line) = .ok tokens
      | .error fault => ∃ fault', tokenize (respace line) = .error fault' ∧
          fault'.moved fault.column = fault ∧
          SamePlace line.toList (respace line).toList fault.column fault'.column := by
  have hpieces : pieces (respace line).toList = pieces line.toList := by
    rw [respace, String.toList_ofList, Respacing.pieces_respaceChars]
  constructor
  · rw [← flatten_pieces, hpieces, flatten_pieces]
  · exact scan_of_pieces_eq hpieces.symm

/-- A space in front of a point keeps two literals apart; the stray character moves with the
spaces in front of it. -/
example :
    respace " ( 2 .5)x=$ " = "(2 .5) x = $" ∧
    tokenize " ( 2 .5)x=$ " = .error (.strayCharacter '$' 10) ∧
    tokenize "(2 .5) x = $" = .error (.strayCharacter '$' 11) := by
  decide +kernel

end Reckoner
