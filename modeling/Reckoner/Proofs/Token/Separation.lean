import Reckoner.Token.Scan
import Mathlib.Data.List.Basic

/-! # Blanks between tokens

A blank ends the token in front of it, whatever that is, and begins none. So a
line may be cut at any blank: its tokens are those of the two parts, and its
first fault is that of the first part, or else that of the second. -/

namespace Reckoner

open Unicode

namespace Unicode

/-- A character has at most one of two properties whose ranges do not meet. -/
theorem Ranges.contains_eq_false_of_disjoint (first second : Ranges) {c : Char}
    (hd : ∀ range ∈ first, ∀ other ∈ second, range.2 < other.1 ∨ other.2 < range.1)
    (h : first.contains c = true) : second.contains c = false := by
  rw [← Bool.not_eq_true]
  intro h'
  obtain ⟨range, hm, hl, hr⟩ := containsCode_sound h
  obtain ⟨other, hm', hl', hr'⟩ := containsCode_sound h'
  rcases hd range hm other hm' with hlt | hlt <;> omega

/-- Blanks continue no name. -/
theorem isAlphanumeric_of_isBlank {c : Char} (h : isBlank c = true) :
    isAlphanumeric c = false := by
  have ha : isAlphabetic c = false :=
    Ranges.contains_eq_false_of_disjoint blank alphabetic (by decide +kernel) h
  have hn : isNumeric c = false :=
    Ranges.contains_eq_false_of_disjoint blank numeric (by decide +kernel) h
  rw [isAlphanumeric, ha, hn, Bool.or_false]

/-- Blanks continue no number. -/
theorem isDigit_of_isBlank {c : Char} (h : isBlank c = true) : c.isDigit = false ∧ c ≠ '.' := by
  have hd : ∀ range ∈ blank, range.2 < '.'.toNat ∨ '9'.toNat < range.1 := by decide
  obtain ⟨range, hm, hl, hr⟩ := Ranges.containsCode_sound h
  have hc : c.toNat < '.'.toNat ∨ '9'.toNat < c.toNat := by
    rcases hd range hm with hlt | hlt <;> omega
  constructor
  · simp only [Char.isDigit, Bool.and_eq_false_iff, decide_eq_false_iff_not]
    rcases hc with hlt | hlt
    · left
      intro hle
      exact absurd (Nat.lt_of_lt_of_le hlt (by decide : '.'.toNat ≤ '0'.toNat)) (Nat.not_lt.mpr hle)
    · right
      exact Nat.not_le.mpr hlt
  · rintro rfl
    revert hc
    decide

end Unicode

/-- The fault some columns further to the right. -/
def TokenError.shift (columns : Nat) : TokenError → TokenError
  | .strayCharacter character column => .strayCharacter character (column + columns)
  | .badLiteral literal column => .badLiteral literal (column + columns)

section Cut

variable {α : Type} {p : α → Bool} {mark : α}

/-- What `p` rejects ends the longest run at the start. -/
theorem takeWhile_append_cons (front : List α) (hm : p mark = false) (rest : List α) :
    (front ++ mark :: rest).takeWhile p = front.takeWhile p := by
  induction front with
  | nil => simp [hm]
  | cons item front ih => simp only [List.cons_append, List.takeWhile_cons, ih]

theorem dropWhile_append_cons (front : List α) (hm : p mark = false) (rest : List α) :
    (front ++ mark :: rest).dropWhile p = front.dropWhile p ++ mark :: rest := by
  induction front with
  | nil => simp [hm]
  | cons item front ih =>
      simp only [List.cons_append, List.dropWhile_cons, ih]
      split <;> rfl

end Cut

/-- The character continues no number and no name. -/
structure Breaks (c : Char) : Prop where
  digit : c.isDigit = false
  point : c ≠ '.'
  name : isAlphanumeric c = false

theorem breaks_of_isBlank {c : Char} (h : isBlank c = true) : Breaks c where
  digit := (isDigit_of_isBlank h).1
  point := (isDigit_of_isBlank h).2
  name := isAlphanumeric_of_isBlank h

variable {mark blank : Char}

theorem Literal.ofText_append (text : List Char) (hb : Breaks mark) (rest : List Char) :
    ofText (text ++ mark :: rest) = ofText text := by
  unfold ofText
  rw [takeWhile_append_cons text hb.digit, dropWhile_append_cons text hb.digit]
  cases text.dropWhile Char.isDigit with
  | nil =>
      simp only [List.nil_append]
      split
      · rename_i h
        exact absurd (List.cons.inj h).1 hb.point
      · rfl
  | cons c after =>
      simp only [List.cons_append]
      by_cases hc : c = '.'
      · subst hc
        simp only [takeWhile_append_cons after hb.digit]
      · split
        · rename_i h
          exact absurd (List.cons.inj h).1 hc
        · split
          · rename_i h
            exact absurd (List.cons.inj h).1 hc
          · rfl

namespace Token

/-- A token does not depend on what stands behind a character that continues none. -/
theorem next_append (c : Char) (text : List Char) (hb : Breaks mark) (rest : List Char) :
    next c (text ++ mark :: rest) = next c text := by
  have hl := Literal.ofText_append (c :: text) hb rest
  rw [List.cons_append] at hl
  simp only [next, hl, takeWhile_append_cons text hb.name]

/-- A token takes no more characters than there are. -/
theorem taken_le_of_next {c : Char} {rest : List Char} {token : Token} {taken : Nat}
    (h : next c rest = .ok (token, taken)) : taken ≤ rest.length := by
  unfold next at h
  split at h
  · simp only at h
    split at h
    · cases h
      have hl := (Literal.chars_prefix (c :: rest)).length_le
      simp only [List.length_cons] at hl
      omega
    · cases h
  · split at h
    · cases h
      exact (List.takeWhile_prefix _).length_le
    · split at h
      · cases h
        exact Nat.zero_le _
      · cases h

/-- Only a literal or the first character is a fault. -/
theorem fault_eq_of_next {c : Char} {rest : List Char} {fault : Nat → TokenError}
    (h : next c rest = .error fault) :
    fault = .badLiteral (String.ofList (Literal.ofText (c :: rest)).chars) ∨
      fault = .strayCharacter c := by
  unfold next at h
  split at h
  · simp only at h
    split at h
    · cases h
    · cases h
      exact .inl rfl
  · split at h
    · cases h
    · split at h
      · cases h
      · cases h
        exact .inr rfl

/-- A fault moves with the column at which its token begins. -/
theorem fault_of_next {c : Char} {rest : List Char} {fault : Nat → TokenError}
    (h : next c rest = .error fault) (column columns : Nat) :
    fault (column + columns) = (fault column).shift columns := by
  rcases fault_eq_of_next h with rfl | rfl <;> rfl

theorem scan_nil (column : Nat) : scan column [] = .ok [] := by rw [scan]

theorem scan_blank (column : Nat) {c : Char} (hc : isBlank c = true) (rest : List Char) :
    scan column (c :: rest) = scan (column + 1) rest := by
  rw [scan, if_pos hc]

theorem scan_fault (column : Nat) {c : Char} (hc : ¬ isBlank c = true) {rest : List Char}
    {fault : Nat → TokenError} (hn : next c rest = .error fault) :
    scan column (c :: rest) = .error (fault column) := by
  rw [scan, if_neg hc, hn]

theorem scan_token (column : Nat) {c : Char} (hc : ¬ isBlank c = true) {rest : List Char}
    {token : Token} {taken : Nat} (hn : next c rest = .ok (token, taken)) :
    scan column (c :: rest) =
      (scan (column + 1 + taken) (rest.drop taken)).map (token :: ·) := by
  rw [scan, if_neg hc, hn]

/-- The fault of a text is that of a token which cannot be read where it should begin. -/
theorem exists_next_of_scan_error {column : Nat} {text : List Char} {fault : TokenError}
    (h : scan column text = .error fault) :
    ∃ offset c rest raised, text.drop offset = c :: rest ∧ isBlank c = false ∧
      next c rest = .error raised ∧ fault = raised (column + offset) := by
  induction column, text using scan.induct with
  | case1 column =>
      rw [scan_nil] at h
      cases h
  | case2 column c rest hc ih =>
      rw [scan_blank _ hc] at h
      obtain ⟨offset, c', rest', raised, hdrop, hsolid, hnext, rfl⟩ := ih h
      refine ⟨offset + 1, c', rest', raised, hdrop, hsolid, hnext, ?_⟩
      rw [Nat.add_assoc, Nat.add_comm 1]
  | case3 column c rest hc raised hn =>
      rw [scan_fault _ hc hn] at h
      cases h
      exact ⟨0, c, rest, raised, rfl, by simpa using hc, hn, rfl⟩
  | case4 column c rest hc token taken hn ih =>
      rw [scan_token _ hc hn] at h
      cases hs : scan (column + 1 + taken) (rest.drop taken) with
      | ok others =>
          rw [hs] at h
          cases h
      | error fault' =>
          rw [hs] at h
          cases h
          obtain ⟨offset, c', rest', raised, hdrop, hsolid, hnext, rfl⟩ := ih hs
          rw [List.drop_drop] at hdrop
          refine ⟨taken + offset + 1, c', rest', raised, hdrop, hsolid, hnext, ?_⟩
          exact congrArg raised (by omega)

/-- Where a text begins matters only to the column of its fault. -/
theorem scan_add (column columns : Nat) (text : List Char) :
    scan (column + columns) text = (scan column text).mapError (·.shift columns) := by
  induction column, text using scan.induct with
  | case1 column =>
      rw [scan_nil, scan_nil]
      rfl
  | case2 column c rest hc ih =>
      rw [scan_blank _ hc, scan_blank _ hc, ← ih, Nat.add_right_comm]
  | case3 column c rest hc fault hn =>
      rw [scan_fault _ hc hn, scan_fault _ hc hn, fault_of_next hn]
      rfl
  | case4 column c rest hc token taken hn ih =>
      have hcolumn : column + columns + 1 + taken = column + 1 + taken + columns := by omega
      rw [scan_token _ hc hn, scan_token _ hc hn, hcolumn, ih]
      cases scan (column + 1 + taken) (rest.drop taken) <;> rfl

theorem scan_blanks (column : Nat) {blanks : List Char} (hb : ∀ c ∈ blanks, isBlank c = true)
    (text : List Char) : scan column (blanks ++ text) = scan (column + blanks.length) text := by
  induction blanks generalizing column with
  | nil => rfl
  | cons c blanks ih =>
      obtain ⟨hc, hblanks⟩ := List.forall_mem_cons.mp hb
      rw [List.cons_append, scan_blank _ hc, ih _ hblanks, List.length_cons, Nat.add_assoc,
        Nat.add_comm 1]

/-- A text may be cut in front of a character that continues no token. -/
theorem scan_append_of_breaks (column : Nat) (text : List Char) (hb : Breaks mark)
    (rest : List Char) :
    scan column (text ++ mark :: rest) =
      (scan column text).bind fun first =>
        (scan (column + text.length) (mark :: rest)).map (first ++ ·) := by
  induction column, text using scan.induct with
  | case1 column =>
      rw [List.nil_append, List.length_nil, Nat.add_zero, scan_nil]
      cases scan column (mark :: rest) <;> rfl
  | case2 column c text hc ih =>
      rw [List.cons_append, scan_blank _ hc, scan_blank _ hc, ih, List.length_cons,
        Nat.add_assoc, Nat.add_comm 1]
  | case3 column c text hc fault hn =>
      have hn' := next_append c text hb rest
      rw [List.cons_append, scan_fault _ hc hn, scan_fault _ hc (hn'.trans hn)]
      rfl
  | case4 column c text hc token taken hn ih =>
      have hn' := next_append c text hb rest
      have hcolumn : column + 1 + taken + (text.drop taken).length =
          column + (c :: text).length := by
        have ht := taken_le_of_next hn
        rw [List.length_drop, List.length_cons]
        omega
      rw [List.cons_append, scan_token _ hc hn, scan_token _ hc (hn'.trans hn),
        List.drop_append_of_le_length (taken_le_of_next hn), ih, hcolumn]
      cases scan (column + 1 + taken) (text.drop taken) with
      | error fault => rfl
      | ok first => cases scan (column + (c :: text).length) (mark :: rest) <;> rfl

/-- In particular it may be cut in front of a blank. -/
theorem scan_append (column : Nat) (text : List Char) (hb : isBlank blank = true)
    (rest : List Char) :
    scan column (text ++ blank :: rest) =
      (scan column text).bind fun first =>
        (scan (column + text.length) (blank :: rest)).map (first ++ ·) :=
  scan_append_of_breaks column text (breaks_of_isBlank hb) rest

end Token

/-- Two texts with blanks between them have the tokens of the first and those of
the second, or the fault of the first, or else that of the second, found behind
the first one and the blanks. -/
theorem tokenize_append (first blanks second : String) (hne : blanks ≠ "")
    (hb : ∀ c ∈ blanks.toList, isBlank c = true) :
    tokenize (first ++ blanks ++ second) =
      match tokenize first with
      | .error fault => .error fault
      | .ok tokens =>
          match tokenize second with
          | .error fault => .error (fault.shift (first.length + blanks.length))
          | .ok others => .ok (tokens ++ others) := by
  obtain ⟨blank, tail, ht⟩ : ∃ blank tail, blanks.toList = blank :: tail := by
    apply List.exists_cons_of_ne_nil
    intro hn
    exact hne (String.toList_inj.mp hn)
  have hblank : isBlank blank = true := hb blank (by simp [ht])
  have hsecond : Token.scan first.length (blank :: tail ++ second.toList) =
      (tokenize second).mapError (·.shift (first.length + blanks.length)) := by
    rw [← ht, Token.scan_blanks _ hb, tokenize, ← Token.scan_add, Nat.zero_add,
      String.length_toList]
  have hcut := Token.scan_append 0 first.toList hblank (tail ++ second.toList)
  rw [Nat.zero_add, String.length_toList, ← List.cons_append, hsecond] at hcut
  have hline : tokenize (first ++ blanks ++ second) = (tokenize first).bind fun tokens =>
      ((tokenize second).mapError (·.shift (first.length + blanks.length))).map
        (tokens ++ ·) := by
    rw [tokenize, String.toList_append, String.toList_append, ht, List.append_assoc, hcut]
    rfl
  rw [hline]
  cases tokenize first with
  | error fault => rfl
  | ok tokens => cases tokenize second <;> rfl

/-- The lone point behind the blanks is the fault, counted from the start of the line. -/
theorem tokenize_append_lone_point :
    "\u3000 " ≠ "" ∧ (∀ c ∈ "\u3000 ".toList, isBlank c = true) ∧
    tokenize ("2 * x1" ++ "\u3000 " ++ ". + 1") = .error (.badLiteral "." 8) := by
  have hb : ∀ c ∈ "\u3000 ".toList, isBlank c = true :=
    List.all_eq_true.mp (by decide)
  refine ⟨by decide, hb, ?_⟩
  have h := tokenize_append "2 * x1" "\u3000 " ". + 1" (by decide) hb
  have hfirst : tokenize "2 * x1" =
    .ok [.number 2, .operator .mul, .identifier "x1"] := by decide +kernel
  have hsecond : tokenize ". + 1" = .error (.badLiteral "." 0) := by decide +kernel
  rw [h, hfirst, hsecond]
  rfl

end Reckoner
