import Reckoner.Proofs.Token.Cuts
import Reckoner.Proofs.Token.Pieces

/-! # Reading a line piece by piece

No token reaches over the end of a piece, so the pieces of a line decide its
tokens. They also decide its first fault, when blanks are not counted in its
column: pieces are then read one by one, each from where the last one ended. -/

namespace Reckoner

open Unicode

/-- How many characters of a text stand in front of a column, blanks aside. -/
def ordinal (text : List Char) (column : Nat) : Nat := (solid (text.take column)).length

theorem ordinal_append_of_le (front back : List Char) {column : Nat} (h : column ≤ front.length) :
    ordinal (front ++ back) column = ordinal front column := by
  rw [ordinal, List.take_append_of_le_length h, ordinal]

theorem ordinal_append_add (front back : List Char) (column : Nat) :
    ordinal (front ++ back) (column + front.length) =
      ordinal back column + (solid front).length := by
  rw [ordinal, Nat.add_comm column, List.take_length_add_append, solid_append, List.length_append,
    Nat.add_comm, ordinal]

/-- The tokens of a text, or its first fault, with its column counted without blanks. -/
def reading (text : List Char) : Except TokenError (List Token) :=
  (Token.scan 0 text).mapError fun fault => fault.moved (ordinal text fault.column)

theorem reading_of_ok {text : List Char} {tokens : List Token}
    (h : Token.scan 0 text = .ok tokens) : reading text = .ok tokens := by
  rw [reading, h]
  rfl

theorem reading_of_error {text : List Char} {fault : TokenError}
    (h : Token.scan 0 text = .error fault) :
    reading text = .error (fault.moved (ordinal text fault.column)) := by
  rw [reading, h]
  rfl

theorem scan_of_reading_ok {text : List Char} {tokens : List Token} (h : reading text = .ok tokens) :
    Token.scan 0 text = .ok tokens := by
  cases hs : Token.scan 0 text with
  | ok others =>
      rw [reading_of_ok hs] at h
      cases h
      rfl
  | error fault =>
      rw [reading_of_error hs] at h
      cases h

theorem scan_of_reading_error {text : List Char} {located : TokenError}
    (h : reading text = .error located) :
    ∃ fault, Token.scan 0 text = .error fault ∧
      fault.moved (ordinal text fault.column) = located := by
  cases hs : Token.scan 0 text with
  | ok others =>
      rw [reading_of_ok hs] at h
      cases h
  | error fault =>
      rw [reading_of_error hs] at h
      exact ⟨fault, rfl, Except.error.inj h⟩

theorem reading_append {front back : List Char} (h : Token.Cuts front back) :
    reading (front ++ back) = inTurn (reading front) (solid front).length (reading back) := by
  rw [reading, h, reading, reading]
  cases hf : Token.scan 0 front with
  | error fault =>
      change Except.error (fault.moved _) = Except.error (fault.moved _)
      rw [ordinal_append_of_le front back (Token.column_lt_of_scan_error hf).le]
  | ok tokens =>
      cases Token.scan 0 back with
      | error fault =>
          change Except.error ((fault.shift _).moved _) = Except.error ((fault.moved _).shift _)
          rw [fault.column_shift, ordinal_append_add, fault.moved_shift, fault.shift_moved]
      | ok others => rfl

/-- What has no blank is read as it is. -/
theorem reading_of_solid {text : List Char} (h : ∀ c ∈ text, isBlank c = false) :
    reading text = Token.scan 0 text := by
  rw [reading]
  cases hs : Token.scan 0 text with
  | ok tokens => rfl
  | error fault =>
      have hlt := Token.column_lt_of_scan_error hs
      have hordinal : ordinal text fault.column = fault.column := by
        rw [ordinal, solid_eq_self fun c hm => h c (List.mem_of_mem_take hm), List.length_take]
        omega
      change Except.error (fault.moved _) = _
      rw [hordinal, fault.moved_column]

/-- The pieces are read one by one. -/
def readAll : List (List Char) → Except TokenError (List Token)
  | [] => .ok []
  | piece :: rest => inTurn (Token.scan 0 piece) piece.length (readAll rest)

theorem readAll_append (front back : List (List Char)) :
    readAll (front ++ back) = inTurn (readAll front) front.flatten.length (readAll back) := by
  induction front with
  | nil => exact (empty_inTurn _).symm
  | cons piece front ih =>
      rw [List.cons_append, readAll, ih, readAll, List.flatten_cons, List.length_append,
        inTurn_assoc]

theorem readAll_singleton (piece : List Char) : readAll [piece] = Token.scan 0 piece :=
  inTurn_empty _ _

namespace Pieces

/-- The word that goes on has only characters that do not end it. -/
def Open (p : Pieces) : Prop := ∀ c ∈ p.word, isBlank c = false

theorem readAll_close {p : Pieces} (ho : p.Open) :
    readAll p.close.ended = inTurn (readAll p.ended) p.ended.flatten.length (reading p.word) := by
  rw [reading_of_solid ho, close]
  split
  · rename_i h
    rw [List.isEmpty_iff.mp h, Token.scan_nil, inTurn_empty]
  · rw [readAll_append, readAll_singleton]

variable {p : Pieces} {c : Char}

/-- A character that ends the word that goes on. -/
def Ends (c : Char) : Prop := isBlank c = true ∨ isPunctuation c = true

theorem cuts_of_ends (h : Ends c) (back : List Char) : Token.Cuts [c] back := by
  rcases h with hb | hp
  · exact Token.cuts_blank hb back
  · exact Token.cuts_punctuation hp back

theorem cuts_append_of_ends (h : Ends c) (front back : List Char) :
    Token.Cuts (front ++ [c]) back := by
  have hc : Breaks c := h.elim breaks_of_isBlank breaks_of_isPunctuation
  exact Token.Cuts.append (Token.cuts_cons hc front back) (Token.cuts_cons hc front [])
    (cuts_of_ends h back)

theorem word_take_of_ends (p : Pieces) (h : Ends c) : (p.take c).word = [] := by
  rcases h with hb | hp
  · rw [take_of_isBlank p hb, word_close]
  · rw [take_of_isPunctuation p hp]

/-- A character that ends a word is read behind it. -/
theorem readAll_take_of_ends (ho : p.Open) (h : Ends c) :
    readAll (p.take c).ended =
      inTurn (readAll p.ended) p.ended.flatten.length (reading (p.word ++ [c])) := by
  have hc : Breaks c := h.elim breaks_of_isBlank breaks_of_isPunctuation
  rw [reading_append (Token.cuts_cons hc p.word []), solid_eq_self ho, ← inTurn_assoc,
    ← readAll_close ho]
  rcases h with hb | hp
  · have hread : reading [c] = .ok [] := by
      rw [reading, Token.scan_blank 0 hb, Token.scan_nil]
      rfl
    rw [take_of_isBlank p hb, hread, inTurn_empty]
  · have hread : reading [c] = Token.scan 0 [c] :=
      reading_of_solid (by simpa using isBlank_of_isPunctuation hp)
    rw [take_of_isPunctuation p hp, readAll_append, readAll_singleton, flatten_close,
      List.length_append, hread]

theorem flatten_take_of_ends (ho : p.Open) (h : Ends c) :
    (p.take c).ended.flatten = p.ended.flatten ++ solid (p.word ++ [c]) := by
  have hflatten := p.flatten_take c
  rwa [word_take_of_ends p h, List.append_nil, List.append_assoc, ← solid_eq_self ho,
    ← solid_append] at hflatten

/-- The pieces of a text are read as the text. -/
theorem readAll_foldl (ho : p.Open) (text : List Char) :
    readAll (text.foldl take p).close.ended =
      inTurn (readAll p.ended) p.ended.flatten.length (reading (p.word ++ text)) := by
  -- The word that goes on is read with the rest of the text, until a character ends it.
  induction text generalizing p with
  | nil => rw [List.foldl_nil, readAll_close ho, List.append_nil]
  | cons c text ih =>
      rw [List.foldl_cons]
      by_cases he : Ends c
      · have hw := word_take_of_ends p he
        have ho' : (p.take c).Open := by
          rw [Open, hw]
          nofun
        have hcut : p.word ++ c :: text = (p.word ++ [c]) ++ text := by simp
        rw [ih ho', hw, List.nil_append, readAll_take_of_ends ho he, flatten_take_of_ends ho he,
          List.length_append, inTurn_assoc, hcut,
          reading_append (cuts_append_of_ends he p.word text)]
      · obtain ⟨hb, hp⟩ := not_or.mp he
        rw [Bool.not_eq_true] at hb hp
        have ho' : Open ⟨p.ended, p.word ++ [c]⟩ := by
          intro c' hm
          rcases List.mem_append.mp hm with hw | hc
          · exact ho c' hw
          · exact List.mem_singleton.mp hc ▸ hb
        rw [take_of_letter p hb hp, ih ho', List.append_assoc, List.singleton_append]

end Pieces

/-- A line says what its pieces say. -/
theorem reading_eq_readAll (text : List Char) : reading text = readAll (pieces text) := by
  have ho : Pieces.start.Open := nofun
  exact ((Pieces.readAll_foldl ho text).trans (empty_inTurn _)).symm

/-- Two columns that hold the same character, which is no blank, and have the same
characters in front of them, blanks aside. -/
structure SamePlace (text other : List Char) (column column' : Nat) : Prop where
  front : solid (text.take column) = solid (other.take column')
  char : ∃ c, text[column]? = some c ∧ other[column']? = some c ∧ isBlank c = false

/-- In texts that differ in blanks only, what stands at the same ordinal stands at the same
place. -/
theorem samePlace_of_ordinal {text other : List Char} (h : solid text = solid other)
    {column column' : Nat} (ho : ordinal text column = ordinal other column') {c c' : Char}
    (hat : text[column]? = some c) (hc : isBlank c = false) (hat' : other[column']? = some c')
    (hc' : isBlank c' = false) : SamePlace text other column column' := by
  have hsplit {text : List Char} {column : Nat} {c : Char} (hat : text[column]? = some c)
      (hc : isBlank c = false) : solid text =
        solid (text.take column) ++ c :: solid (text.drop (column + 1)) := by
    obtain ⟨hlt, rfl⟩ := List.getElem?_eq_some_iff.mp hat
    have hsolid : solid [text[column]] = [text[column]] := solid_eq_self (by simpa using hc)
    rw [← List.singleton_append, ← hsolid, ← solid_append, ← solid_append, List.singleton_append,
      ← List.drop_eq_getElem_cons hlt, List.take_append_drop]
  rw [hsplit hat hc, hsplit hat' hc'] at h
  obtain ⟨hfront, hback⟩ := List.append_inj h ho
  obtain rfl := (List.cons.inj hback).1
  exact ⟨hfront, c, hat, hat', hc⟩

/-- Texts with the same pieces have the same tokens, or the same fault at the same place. -/
theorem scan_of_pieces_eq {text other : List Char} (h : pieces text = pieces other) :
    match Token.scan 0 text with
    | .ok tokens => Token.scan 0 other = .ok tokens
    | .error fault => ∃ fault', Token.scan 0 other = .error fault' ∧
        fault'.moved fault.column = fault ∧ SamePlace text other fault.column fault'.column := by
  have hreading : reading text = reading other := by
    rw [reading_eq_readAll, h, reading_eq_readAll]
  have hsolid : solid text = solid other := by
    rw [← flatten_pieces, h, flatten_pieces]
  cases hs : Token.scan 0 text with
  | ok tokens => exact scan_of_reading_ok (hreading ▸ reading_of_ok hs)
  | error fault =>
      obtain ⟨fault', ho, hmoved⟩ := scan_of_reading_error (hreading ▸ reading_of_error hs)
      have hordinal : ordinal other fault'.column = ordinal text fault.column := by
        simpa using congrArg TokenError.column hmoved
      obtain ⟨c, hat, hc⟩ := Token.exists_char_of_scan_error hs
      obtain ⟨c', hat', hc'⟩ := Token.exists_char_of_scan_error ho
      refine ⟨fault', ho, ?_, samePlace_of_ordinal hsolid hordinal.symm hat hc hat' hc'⟩
      rw [← fault'.moved_moved, hmoved, fault.moved_moved, fault.moved_column]

end Reckoner
