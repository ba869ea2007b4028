import Mathlib.Data.List.Infix
import Reckoner.Proofs.Requests

/-! # The keyword as a word

A trimmed line asks for the steps of its evaluation just where its first or its last word
is the keyword. What is left of it then is trimmed and has all its other words. The keyword
takes one byte for each character, so a line is cut between characters where it is cut by
that number of bytes. -/

namespace Reckoner.Request

open Unicode

variable {word : List Char} {line : String}

/-- The word is the keyword, in any case. -/
def isKeyword (word : List Char) : Bool := Text.sameIgnoringCase word keyword

/-- What is asked for by a line without one of its words, the keyword. -/
structure Without (line : String) (others : List (List Char)) (request : Request) : Prop where
  details : request.details = true
  trimmed : Text.trim request.expression.toList = request.expression.toList
  piece : request.expression.toList <:+: line.toList
  words : Text.words request.expression.toList = others

/-! ## The first word and the last -/

theorem without_trim {piece : List Char} (hpiece : piece <:+: line.toList) :
    Without line (Text.words piece) ⟨true, String.ofList (Text.trim piece)⟩ where
  details := rfl
  trimmed := by rw [String.toList_ofList, Text.trim_trim]
  piece := by
    rw [String.toList_ofList]
    exact (Text.trim_infix piece).trans hpiece
  words := by rw [String.toList_ofList, Text.words_trim]

/-- The keyword alone asks for the steps of nothing. -/
theorem ofLine_keyword (h : isKeyword line.toList) : ofLine line = ⟨true, ""⟩ := by
  have hsolid := solid_of_sameIgnoringCase h
  have hafter : afterKeyword? line.toList = none := by
    refine Option.eq_none_iff_forall_not_mem.mpr fun rest hrest => ?_
    obtain ⟨front, c, back, hline, -, hblank, -⟩ := afterKeyword?_eq_some_iff.mp hrest
    exact absurd hblank (by simp [hsolid c (by simp [hline])])
  have hbefore : beforeKeyword? line.toList = none := by
    refine Option.eq_none_iff_forall_not_mem.mpr fun rest hrest => ?_
    obtain ⟨front, c, back, hline, hblank, -, -⟩ := beforeKeyword?_eq_some_iff.mp hrest
    exact absurd hblank (by simp [hsolid c (by simp [hline])])
  have hsame : Text.sameIgnoringCase line.toList keyword = true := h
  simp only [ofLine, hafter, hbefore, hsame, if_true]

theorem without_ofLine_keyword (h : isKeyword line.toList) : Without line [] (ofLine line) := by
  rw [ofLine_keyword h]
  exact without_trim List.nil_infix

/-- The keyword as the first word is taken off. -/
theorem without_first (htrim : Text.trim line.toList = line.toList)
    (hword : word ∈ (Text.words line.toList).head?) (hkeyword : isKeyword word) :
    Without line (Text.words line.toList).tail (ofLine line) := by
  obtain ⟨rest, hline, hrest⟩ :=
    Text.exists_append_of_head?_words (Text.trim_eq_self_iff.mp htrim).1 hword
  have hwords := Text.words_solid_append (solid_of_sameIgnoringCase hkeyword)
    (ne_nil_of_sameIgnoringCase hkeyword) hrest
  rw [hline, hwords, List.tail_cons]
  cases rest with
  | nil =>
      rw [List.append_nil] at hline
      rw [← hline] at hkeyword
      exact without_ofLine_keyword hkeyword
  | cons c rest =>
      have hafter := afterKeyword?_eq_some_iff.mpr
        ⟨word, c, rest, hline, hkeyword, hrest c rfl, rfl⟩
      have hpiece : c :: rest <:+: line.toList := ⟨word, [], by rw [List.append_nil, hline]⟩
      have h := without_trim hpiece
      rwa [show (⟨true, _⟩ : Request) = ofLine line by simp only [ofLine, hafter]] at h

/-- The keyword as the last word is taken off, if the first word is another. -/
theorem without_last (htrim : Text.trim line.toList = line.toList)
    (hfirst : ∀ word ∈ (Text.words line.toList).head?, isKeyword word = false)
    (hword : word ∈ (Text.words line.toList).getLast?) (hkeyword : isKeyword word) :
    Without line (Text.words line.toList).dropLast (ofLine line) := by
  obtain ⟨front, hline, hfront⟩ :=
    Text.exists_append_of_getLast?_words (Text.trim_eq_self_iff.mp htrim).2 hword
  have hwords := Text.words_append_solid (solid_of_sameIgnoringCase hkeyword)
    (ne_nil_of_sameIgnoringCase hkeyword) hfront
  rw [← hline] at hwords
  rcases List.eq_nil_or_concat front with rfl | ⟨before, c, rfl⟩
  · have hother := hfirst word (by rw [hwords]; rfl)
    rw [hkeyword] at hother
    cases hother
  · rw [List.concat_eq_append] at hline hfront hwords
    have hafter := afterKeyword?_eq_none hfirst
    have hcut : line.toList = before ++ c :: word := by
      rw [hline, List.append_assoc, List.singleton_append]
    have hbefore := beforeKeyword?_eq_some_iff.mpr
      ⟨before, c, word, hcut, hfront c (by simp), hkeyword, rfl⟩
    have hpiece : before ++ [c] <:+: line.toList := ⟨[], word, by rw [List.nil_append, hline]⟩
    have h := without_trim hpiece
    rw [hwords, List.dropLast_concat]
    rwa [show (⟨true, _⟩ : Request) = ofLine line by simp only [ofLine, hafter, hbefore]] at h

/-! ## Positions in bytes -/

/-- The parts of a line in front of a byte and from it on; none when this byte is inside a
character or behind the end. -/
def cut? (line : String) (byte : Nat) : Option (String × String) :=
  if h : String.Pos.Raw.isValid line ⟨byte⟩ then
    let position := line.pos ⟨byte⟩ (String.Pos.Raw.isValid_eq_true_iff.mp h)
    some ((line.sliceTo position).copy, (line.sliceFrom position).copy)
  else none

def keywordBytes : Nat := (String.ofList keyword).utf8ByteSize

/-- What follows the keyword and a blank, found by cutting the line behind the bytes of the
keyword. The outer option is none when the line cannot be cut there. -/
def cutAfter? (line : String) : Option (Option String) :=
  if keywordBytes < line.utf8ByteSize ∧
      (cut? line keywordBytes).any fun parts => isKeyword parts.1.toList then
    (cut? line keywordBytes).map fun parts =>
      if parts.2.toList.head?.any isBlank then some (String.ofList (Text.trim parts.2.toList))
      else none
  else some none

/-- What precedes a blank and the keyword, found in the same way. -/
def cutBefore? (line : String) : Option (Option String) :=
  let byte := line.utf8ByteSize - keywordBytes
  if keywordBytes < line.utf8ByteSize ∧
      (cut? line byte).any fun parts => isKeyword parts.2.toList then
    (cut? line byte).map fun parts =>
      if parts.1.toList.getLast?.any isBlank then some (String.ofList (Text.trim parts.1.toList))
      else none
  else some none

/-- The request of a line that is cut at bytes; none when it cannot be cut at one of them. -/
def ofBytes? (line : String) : Option Request :=
  (cutAfter? line).bind fun
    | some rest => some ⟨true, rest⟩
    | none => (cutBefore? line).map fun
        | some rest => ⟨true, rest⟩
        | none => if isKeyword line.toList then ⟨true, ""⟩ else ⟨false, line⟩

theorem cut?_eq_some_iff {line front back : String} {byte : Nat} :
    cut? line byte = some (front, back) ↔ line = front ++ back ∧ front.utf8ByteSize = byte := by
  unfold cut?
  split
  · rename_i hvalid
    set position := line.pos ⟨byte⟩ (String.Pos.Raw.isValid_eq_true_iff.mp hvalid) with hposition
    have hoffset : position.offset = ⟨byte⟩ := by rw [hposition, String.offset_pos]
    have hsplits := position.splits
    constructor
    · intro h
      obtain ⟨rfl, rfl⟩ := Prod.mk.inj (Option.some_inj.mp h)
      refine ⟨hsplits.eq_append, ?_⟩
      have hend := hsplits.offset_eq_rawEndPos
      rw [hoffset] at hend
      exact (congrArg String.Pos.Raw.byteIdx hend).symm
    · rintro ⟨hline, hbyte⟩
      have hfront : position.Splits front back := ⟨hline, by rw [hoffset, ← hbyte]; rfl⟩
      obtain ⟨hleft, hright⟩ := hsplits.eq hfront
      exact congrArg some (Prod.ext hleft hright)
  · rename_i hvalid
    constructor
    · intro h
      cases h
    · rintro ⟨hline, hbyte⟩
      refine absurd (String.Pos.Raw.isValid_eq_true_iff.mpr ?_) hvalid
      exact String.Pos.Raw.isValid_iff_exists_append.mpr ⟨front, back, hline, by rw [← hbyte]; rfl⟩

theorem utf8Size_toLower (c : Char) : c.toLower.utf8Size = c.utf8Size := by
  unfold Char.toLower
  split
  · rename_i hupper
    have hle : c.val.toNat ≤ 90 := UInt32.le_iff_toNat_le.mp hupper.2
    have hlower : (c.val + ('a'.val - 'A'.val)).toNat = (c.val.toNat + 32) % 2 ^ 32 :=
      UInt32.toNat_add _ _
    rw [Char.utf8Size_eq_one_iff.mpr (UInt32.le_iff_toNat_le.mpr ?_),
      Char.utf8Size_eq_one_iff.mpr (UInt32.le_iff_toNat_le.mpr ?_)]
    · exact Nat.le_trans hle (by decide)
    · change (c.val + ('a'.val - 'A'.val)).toNat ≤ 127
      omega
  · rfl

theorem utf8ByteSize_ofList_cons (c : Char) (text : List Char) :
    (String.ofList (c :: text)).utf8ByteSize = c.utf8Size + (String.ofList text).utf8ByteSize := by
  rw [String.ofList_cons, String.utf8ByteSize_append, String.utf8ByteSize_singleton]

theorem utf8ByteSize_map_toLower (text : List Char) :
    (String.ofList (text.map Char.toLower)).utf8ByteSize = (String.ofList text).utf8ByteSize := by
  induction text with
  | nil => rfl
  | cons c text ih =>
      rw [List.map_cons, utf8ByteSize_ofList_cons, utf8ByteSize_ofList_cons, utf8Size_toLower, ih]

theorem utf8ByteSize_of_isKeyword (h : isKeyword word) :
    (String.ofList word).utf8ByteSize = keywordBytes := by
  have hmap : word.map Char.toLower = keyword.map Char.toLower := eq_of_beq h
  rw [keywordBytes, ← utf8ByteSize_map_toLower, hmap, utf8ByteSize_map_toLower]

theorem cut?_append (front back : List Char) (hline : line.toList = front ++ back) :
    cut? line (String.ofList front).utf8ByteSize = some (String.ofList front, String.ofList back) :=
  cut?_eq_some_iff.mpr ⟨by rw [← String.ofList_append, ← hline, String.ofList_toList], rfl⟩

theorem utf8ByteSize_append (front back : List Char) (hline : line.toList = front ++ back) :
    line.utf8ByteSize = (String.ofList front).utf8ByteSize + (String.ofList back).utf8ByteSize := by
  rw [← String.utf8ByteSize_append, ← String.ofList_append, ← hline, String.ofList_toList]

theorem utf8ByteSize_pos {text : List Char} (hne : text ≠ []) :
    0 < (String.ofList text).utf8ByteSize := by
  obtain ⟨c, rest, rfl⟩ := List.exists_cons_of_ne_nil hne
  rw [utf8ByteSize_ofList_cons]
  exact Nat.add_pos_left c.utf8Size_pos _

/-- Cutting behind the bytes of the keyword takes it off in front. -/
theorem cutAfter?_eq (line : String) :
    cutAfter? line = some ((afterKeyword? line.toList).map String.ofList) := by
  cases h : afterKeyword? line.toList with
  | some rest =>
      obtain ⟨word, c, back, hline, hword, hblank, rfl⟩ := afterKeyword?_eq_some_iff.mp h
      have hkeyword : isKeyword word = true := hword
      have hcut := cut?_append word (c :: back) hline
      have hsize := utf8ByteSize_append word (c :: back) hline
      have hpos := utf8ByteSize_pos (List.cons_ne_nil c back)
      rw [utf8ByteSize_of_isKeyword hkeyword] at hcut hsize
      rw [cutAfter?, if_pos ⟨by omega, by simp [hcut, hkeyword]⟩, hcut]
      simp [hblank]
  | none =>
      rw [cutAfter?]
      split
      · rename_i hcond
        obtain ⟨⟨front, back⟩, hcut, hword⟩ := (Option.any_eq_true _ _).mp hcond.2
        obtain ⟨rfl, -⟩ := cut?_eq_some_iff.mp hcut
        rw [hcut, Option.map_some, Option.map_none, if_neg]
        intro hblank
        obtain ⟨c, hc, hblank⟩ := (Option.any_eq_true _ _).mp hblank
        obtain ⟨rest, hback⟩ := List.head?_eq_some_iff.mp hc
        have hline : (front ++ back).toList = front.toList ++ c :: rest := by
          rw [String.toList_append, ← hback]
        have hafter := afterKeyword?_eq_some_iff.mpr
          ⟨front.toList, c, rest, hline, hword, hblank, rfl⟩
        rw [h] at hafter
        cases hafter
      · rfl

/-- Cutting in front of as many bytes at the end takes the keyword off behind. -/
theorem cutBefore?_eq (line : String) :
    cutBefore? line = some ((beforeKeyword? line.toList).map String.ofList) := by
  cases h : beforeKeyword? line.toList with
  | some rest =>
      obtain ⟨front, c, word, hline, hblank, hword, rfl⟩ := beforeKeyword?_eq_some_iff.mp h
      have hkeyword : isKeyword word = true := hword
      rw [← List.singleton_append, ← List.append_assoc] at hline
      have hcut := cut?_append (front ++ [c]) word hline
      have hsize := utf8ByteSize_append (front ++ [c]) word hline
      have hne : front ++ [c] ≠ [] :=
        List.append_ne_nil_of_right_ne_nil front (List.cons_ne_nil c [])
      have hpos := utf8ByteSize_pos hne
      have hbyte :
          line.utf8ByteSize - keywordBytes = (String.ofList (front ++ [c])).utf8ByteSize := by
        rw [hsize, utf8ByteSize_of_isKeyword hkeyword, Nat.add_sub_cancel]
      rw [utf8ByteSize_of_isKeyword hkeyword] at hsize
      rw [← hbyte] at hcut
      rw [cutBefore?, if_pos ⟨by omega, by simp [hcut, hkeyword]⟩, hcut]
      simp [hblank]
  | none =>
      rw [cutBefore?]
      split
      · rename_i hcond
        obtain ⟨⟨front, back⟩, hcut, hword⟩ := (Option.any_eq_true _ _).mp hcond.2
        obtain ⟨rfl, -⟩ := cut?_eq_some_iff.mp hcut
        rw [hcut, Option.map_some, Option.map_none, if_neg]
        intro hblank
        obtain ⟨c, hc, hblank⟩ := (Option.any_eq_true _ _).mp hblank
        obtain ⟨before, hfront⟩ := List.getLast?_eq_some_iff.mp hc
        have hline : (front ++ back).toList = before ++ c :: back.toList := by
          rw [String.toList_append, ← List.singleton_append, ← List.append_assoc, ← hfront]
        have hbefore := beforeKeyword?_eq_some_iff.mpr
          ⟨before, c, back.toList, hline, hblank, hword, rfl⟩
        rw [h] at hbefore
        cases hbefore
      · rfl

/-- A line can be cut wherever the keyword is looked for. -/
theorem ofBytes?_eq (line : String) : ofBytes? line = some (ofLine line) := by
  rw [ofBytes?, cutAfter?_eq, cutBefore?_eq, ofLine, Option.bind_some]
  cases afterKeyword? line.toList with
  | some rest => rfl
  | none =>
      cases beforeKeyword? line.toList with
      | some rest => rfl
      | none => rfl

/-- A trimmed line asks for steps just when the keyword is its first word or its last one.
Then that word alone is taken off, the first of the two if both are the keyword, and what is
left stands in one piece in the line. Otherwise the line is left as it is. Where bytes are
counted for this, the line is cut between characters. -/
theorem ofLine_takes_keyword (line : String) (htrim : Text.trim line.toList = line.toList) :
    let words := Text.words line.toList
    let request := ofLine line
    (request.details = true ↔
      words.head?.any isKeyword = true ∨ words.getLast?.any isKeyword = true) ∧
    (request.details = true →
      Without line (if words.head?.any isKeyword then words.tail else words.dropLast) request) ∧
    (request.details = false → request.expression = line) ∧
    ofBytes? line = some request := by
  intro words request
  by_cases hfirst : words.head?.any isKeyword = true
  · obtain ⟨word, hword, hkeyword⟩ := (Option.any_eq_true _ _).mp hfirst
    have hwithout : Without line words.tail request := without_first htrim hword hkeyword
    rw [if_pos hfirst]
    refine ⟨⟨fun _ => .inl hfirst, fun _ => hwithout.details⟩, fun _ => hwithout, fun hplain => ?_,
      ofBytes?_eq line⟩
    exact absurd (hplain.symm.trans hwithout.details) Bool.false_ne_true
  have hothers : ∀ word ∈ words.head?, isKeyword word = false := by
    simpa [Option.any_eq_true] using hfirst
  rw [if_neg hfirst]
  by_cases hlast : words.getLast?.any isKeyword = true
  · obtain ⟨word, hword, hkeyword⟩ := (Option.any_eq_true _ _).mp hlast
    have hwithout : Without line words.dropLast request :=
      without_last htrim hothers hword hkeyword
    refine ⟨⟨fun _ => .inr hlast, fun _ => hwithout.details⟩, fun _ => hwithout, fun hplain => ?_,
      ofBytes?_eq line⟩
    exact absurd (hplain.symm.trans hwithout.details) Bool.false_ne_true
  · have hlasts : ∀ word ∈ words.getLast?, isKeyword word = false := by
      simpa [Option.any_eq_true] using hlast
    have hplain : request = ⟨false, line⟩ := ofLine_of_others hothers hlasts
    have hnot : ¬ request.details = true := by rw [hplain]; exact Bool.false_ne_true
    refine ⟨⟨fun h => absurd h hnot, fun h => (h.elim hfirst hlast).elim⟩,
      fun h => absurd h hnot, fun _ => ?_, ofBytes?_eq line⟩
    rw [hplain]

/-- A blank of three bytes stands in front of the keyword. -/
theorem ofLine_takes_keyword_wide_blank :
    let line := "π\u2003Details"
    Text.trim line.toList = line.toList ∧ Without line [['π']] ⟨true, "π"⟩ ∧
      ofBytes? line = some ⟨true, "π"⟩ := by
  intro line
  have htrim : Text.trim line.toList = line.toList := by decide +kernel
  have hrequest : ofLine line = ⟨true, "π"⟩ := by decide +kernel
  have hwords : Text.words line.toList = [['π'], "Details".toList] := by decide +kernel
  have hfirst : isKeyword ['π'] = false := by decide
  obtain ⟨-, hwithout, -, hbytes⟩ := ofLine_takes_keyword line htrim
  rw [hrequest, hwords] at hwithout
  rw [hrequest] at hbytes
  refine ⟨htrim, ?_, hbytes⟩
  simpa [hfirst] using hwithout rfl

end Reckoner.Request
