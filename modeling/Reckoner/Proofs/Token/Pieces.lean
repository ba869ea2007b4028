import Reckoner.Proofs.Token.Lexeme

/-! # Pieces of a line

A piece is a character that is a token by itself, or a longest run of other
characters without a blank. -/

namespace Reckoner

open Unicode

/-- The characters of a text that are not blank. -/
def solid (text : List Char) : List Char := text.filter (!isBlank ·)

@[simp] theorem solid_append (front back : List Char) :
    solid (front ++ back) = solid front ++ solid back :=
  List.filter_append ..

theorem solid_eq_self {text : List Char} (h : ∀ c ∈ text, isBlank c = false) :
    solid text = text :=
  List.filter_eq_self.mpr fun c hm => by rw [h c hm]; rfl

/-- The pieces of a text that has been read up to some point. -/
structure Pieces where
  /-- The pieces that have ended. -/
  ended : List (List Char)
  /-- The characters of the piece that goes on, if there are any. -/
  word : List Char

namespace Pieces

def start : Pieces := ⟨[], []⟩

/-- Ends the piece that goes on. -/
def close (p : Pieces) : Pieces :=
  if p.word.isEmpty then p else ⟨p.ended ++ [p.word], []⟩

/-- Reads one more character. -/
def take (p : Pieces) (c : Char) : Pieces :=
  if isBlank c then p.close
  else if isPunctuation c then ⟨p.close.ended ++ [[c]], []⟩
  else ⟨p.ended, p.word ++ [c]⟩

variable {p : Pieces} {c : Char}

@[simp] theorem word_close (p : Pieces) : p.close.word = [] := by
  unfold close
  split
  · rename_i h
    exact List.isEmpty_iff.mp h
  · rfl

theorem close_of_word_eq_nil (h : p.word = []) : p.close = p := by
  simp [close, h]

@[simp] theorem close_close (p : Pieces) : p.close.close = p.close :=
  close_of_word_eq_nil p.word_close

theorem take_of_isBlank (p : Pieces) (h : isBlank c = true) : p.take c = p.close :=
  if_pos h

theorem take_of_isPunctuation (p : Pieces) (h : isPunctuation c = true) :
    p.take c = ⟨p.close.ended ++ [[c]], []⟩ := by
  simp [take, isBlank_of_isPunctuation h, h]

theorem take_of_letter (p : Pieces) (hb : isBlank c = false) (hp : isPunctuation c = false) :
    p.take c = ⟨p.ended, p.word ++ [c]⟩ := by
  simp [take, hb, hp]

end Pieces

/-- The pieces of a text in order. -/
def pieces (text : List Char) : List (List Char) :=
  (text.foldl Pieces.take .start).close.ended

/-- All pieces read so far, with the one that goes on. -/
theorem Pieces.flatten_close (p : Pieces) : p.close.ended.flatten = p.ended.flatten ++ p.word := by
  unfold close
  split
  · rename_i h
    simp [List.isEmpty_iff.mp h]
  · simp

/-- Reading a character adds it, unless it is a blank. -/
theorem Pieces.flatten_take (p : Pieces) (c : Char) :
    (p.take c).ended.flatten ++ (p.take c).word = p.ended.flatten ++ p.word ++ solid [c] := by
  by_cases hb : isBlank c = true
  · rw [take_of_isBlank p hb, flatten_close, word_close]
    simp [solid, hb]
  · by_cases hp : isPunctuation c = true
    · rw [take_of_isPunctuation p hp]
      simp [solid, hb, flatten_close]
    · rw [take_of_letter p (by simpa using hb) (by simpa using hp)]
      simp [solid, hb]

theorem Pieces.flatten_foldl (p : Pieces) (text : List Char) :
    (text.foldl take p).close.ended.flatten = p.ended.flatten ++ p.word ++ solid text := by
  induction text generalizing p with
  | nil => simp [flatten_close, solid]
  | cons c text ih =>
      rw [List.foldl_cons, ih, flatten_take, List.append_assoc, ← solid_append,
        List.singleton_append]

/-- Nothing but blanks is lost between pieces. -/
theorem flatten_pieces (text : List Char) : (pieces text).flatten = solid text := by
  rw [pieces, Pieces.flatten_foldl]
  rfl

end Reckoner
