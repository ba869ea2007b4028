import Reckoner.Proofs.Token.Lexeme

/-! # Reading a text in two parts

A text may be cut where no token goes on. Its tokens are then those of the two
parts, or the first fault in them, which points at a character that is no blank. -/

namespace Reckoner

open Unicode

namespace TokenError

def column : TokenError → Nat
  | .strayCharacter _ column => column
  | .badLiteral _ column => column

/-- The fault at another column. -/
def moved (column : Nat) : TokenError → TokenError
  | .strayCharacter character _ => .strayCharacter character column
  | .badLiteral literal _ => .badLiteral literal column

@[simp] theorem column_shift (fault : TokenError) (columns : Nat) :
    (fault.shift columns).column = fault.column + columns := by
  cases fault <;> rfl

@[simp] theorem column_moved (fault : TokenError) (column : Nat) :
    (fault.moved column).column = column := by
  cases fault <;> rfl

theorem moved_moved (fault : TokenError) (column other : Nat) :
    (fault.moved column).moved other = fault.moved other := by
  cases fault <;> rfl

theorem moved_column (fault : TokenError) : fault.moved fault.column = fault := by
  cases fault <;> rfl

theorem moved_shift (fault : TokenError) (columns column : Nat) :
    (fault.shift columns).moved column = fault.moved column := by
  cases fault <;> rfl

theorem shift_moved (fault : TokenError) (column columns : Nat) :
    (fault.moved column).shift columns = fault.moved (column + columns) := by
  cases fault <;> rfl

theorem shift_shift (fault : TokenError) (columns others : Nat) :
    (fault.shift columns).shift others = fault.shift (columns + others) := by
  cases fault <;> simp [shift, Nat.add_assoc]

theorem shift_zero (fault : TokenError) : fault.shift 0 = fault := by
  cases fault <;> rfl

end TokenError

theorem Token.column_of_next {c : Char} {rest : List Char} {fault : Nat → TokenError}
    (h : next c rest = .error fault) (column : Nat) : (fault column).column = column := by
  rcases fault_eq_of_next h with rfl | rfl <;> rfl

/-- A fault points at a character that is not blank. -/
theorem Token.exists_char_of_scan_error {text : List Char} {fault : TokenError}
    (h : scan 0 text = .error fault) :
    ∃ c, text[fault.column]? = some c ∧ isBlank c = false := by
  obtain ⟨offset, c, rest, raised, hdrop, hsolid, hnext, rfl⟩ := exists_next_of_scan_error h
  refine ⟨c, ?_, hsolid⟩
  rw [column_of_next hnext, Nat.zero_add, ← List.head?_drop, hdrop, List.head?_cons]

theorem Token.column_lt_of_scan_error {text : List Char} {fault : TokenError}
    (h : scan 0 text = .error fault) : fault.column < text.length := by
  obtain ⟨c, hat, _⟩ := exists_char_of_scan_error h
  obtain ⟨hlt, _⟩ := List.getElem?_eq_some_iff.mp hat
  exact hlt

/-- The tokens of two parts of a text, or the first fault in them. `columns` is
the length of the first part. -/
def inTurn (first : Except TokenError (List Token)) (columns : Nat)
    (second : Except TokenError (List Token)) : Except TokenError (List Token) :=
  first.bind fun tokens => (second.mapError (·.shift columns)).map (tokens ++ ·)

theorem inTurn_empty (first : Except TokenError (List Token)) (columns : Nat) :
    inTurn first columns (.ok []) = first := by
  cases first with
  | error fault => rfl
  | ok tokens =>
      change Except.ok (tokens ++ []) = _
      rw [List.append_nil]

theorem empty_inTurn (second : Except TokenError (List Token)) :
    inTurn (.ok []) 0 second = second := by
  cases second with
  | error fault =>
      change Except.error (fault.shift 0) = _
      rw [fault.shift_zero]
  | ok tokens => rfl

theorem inTurn_assoc (first second third : Except TokenError (List Token))
    (columns others : Nat) :
    inTurn (inTurn first columns second) (columns + others) third =
      inTurn first columns (inTurn second others third) := by
  cases first with
  | error fault => rfl
  | ok tokens =>
      cases second with
      | error fault => rfl
      | ok others' =>
          cases third with
          | error fault =>
              change Except.error (fault.shift (columns + others)) =
                Except.error ((fault.shift others).shift columns)
              rw [fault.shift_shift, Nat.add_comm]
          | ok rest =>
              change Except.ok (tokens ++ others' ++ rest) = Except.ok (tokens ++ (others' ++ rest))
              rw [List.append_assoc]

namespace Token

/-- The text may be cut behind `front`. -/
def Cuts (front back : List Char) : Prop :=
  scan 0 (front ++ back) = inTurn (scan 0 front) front.length (scan 0 back)

/-- What is a blank or a token by itself may be cut off in front and behind. -/
theorem cuts_cons {c : Char} (hb : Breaks c) (front back : List Char) :
    Cuts front (c :: back) := by
  have hs := scan_add 0 front.length (c :: back)
  rw [Cuts, scan_append_of_breaks 0 front hb, hs]
  rfl

theorem cuts_blank {c : Char} (hc : isBlank c = true) (back : List Char) : Cuts [c] back := by
  have hs := scan_add 0 1 back
  have hn (rest : List Char) : scan 0 (c :: rest) = scan (0 + 1) rest := scan_blank 0 hc rest
  rw [Cuts, List.singleton_append, hn, hn, scan_nil, hs]
  cases scan 0 back <;> rfl

theorem cuts_punctuation {c : Char} (hc : isPunctuation c = true) (back : List Char) :
    Cuts [c] back := by
  obtain ⟨token, ht⟩ := Option.isSome_iff_exists.mp hc
  have hs := scan_add 0 1 back
  have hn (rest : List Char) : scan 0 (c :: rest) = (scan (0 + 1) rest).map (token :: ·) :=
    scan_token 0 (by simp [isBlank_of_isPunctuation hc]) (next_punctuation ht rest)
  rw [Cuts, List.singleton_append, hn, hn, scan_nil, hs]
  cases scan 0 back <;> rfl

/-- What may be cut in front and behind may be cut behind. -/
theorem Cuts.append {front middle back : List Char} (h : Cuts front (middle ++ back))
    (hfront : Cuts front middle) (hmiddle : Cuts middle back) : Cuts (front ++ middle) back := by
  rw [Cuts, List.append_assoc, h, hmiddle, hfront, List.length_append, inTurn_assoc]

end Token

end Reckoner
