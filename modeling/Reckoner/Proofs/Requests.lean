import Reckoner.Command
import Reckoner.Proofs.Words

/-! # Requests

A line may ask for the steps of its evaluation by a keyword in front of it or
behind it. The keyword is taken off, and nothing else is. -/

namespace Reckoner

open Unicode
open Text (isBlank_space)

namespace Request

variable {text rest : List Char}

/-- The keyword has no blank, in any case. -/
theorem solid_of_sameIgnoringCase (h : Text.sameIgnoringCase text keyword = true) :
    ∀ c ∈ text, isBlank c = false := by
  intro c hm
  rw [← Bool.not_eq_true]
  intro hc
  rw [Text.sameIgnoringCase_of_blank hm hc (by decide)] at h
  cases h

theorem ne_nil_of_sameIgnoringCase (h : Text.sameIgnoringCase text keyword = true) :
    text ≠ [] := by
  rintro rfl
  exact absurd h (by decide)

theorem length_of_sameIgnoringCase (h : Text.sameIgnoringCase text keyword = true) :
    text.length = keyword.length := by
  have hmap : text.map Char.toLower = keyword.map Char.toLower := eq_of_beq h
  rw [← List.length_map Char.toLower, hmap, List.length_map]

theorem words_of_sameIgnoringCase (h : Text.sameIgnoringCase text keyword = true) :
    Text.words text = [text] :=
  Text.words_solid (solid_of_sameIgnoringCase h) (ne_nil_of_sameIgnoringCase h)

/-- The keyword is taken off in front of a blank. -/
theorem afterKeyword?_eq_some_iff :
    afterKeyword? text = some rest ↔ ∃ word c back, text = word ++ c :: back ∧
      Text.sameIgnoringCase word keyword = true ∧ isBlank c = true ∧
      rest = Text.trim (c :: back) := by
  constructor
  · intro h
    unfold afterKeyword? at h
    split at h
    · cases h
    · rename_i c back hdrop
      split at h
      · rename_i hc
        obtain ⟨hword, hblank⟩ := Bool.and_eq_true_iff.mp hc
        refine ⟨text.take keyword.length, c, back, ?_, hword, hblank, (Option.some_inj.mp h).symm⟩
        rw [← hdrop, List.take_append_drop]
      · cases h
  · rintro ⟨word, c, back, rfl, hword, hblank, rfl⟩
    have hlength := length_of_sameIgnoringCase hword
    rw [afterKeyword?, List.drop_left' hlength, List.take_left' hlength]
    simp [hword, hblank]

/-- The keyword is taken off behind a blank. -/
theorem beforeKeyword?_eq_some_iff :
    beforeKeyword? text = some rest ↔ ∃ front c word, text = front ++ c :: word ∧
      isBlank c = true ∧ Text.sameIgnoringCase word keyword = true ∧
      rest = Text.trim (front ++ [c]) := by
  constructor
  · intro h
    unfold beforeKeyword? at h
    dsimp only at h
    split at h
    · cases h
    · rename_i c hlast
      obtain ⟨front, hfront⟩ := List.getLast?_eq_some_iff.mp hlast
      split at h
      · rename_i hc
        obtain ⟨hword, hblank⟩ := Bool.and_eq_true_iff.mp hc
        refine ⟨front, c, text.drop (text.length - keyword.length), ?_, hblank, hword, ?_⟩
        · rw [← List.singleton_append, ← List.append_assoc, ← hfront, List.take_append_drop]
        · rw [← hfront]
          exact (Option.some_inj.mp h).symm
      · cases h
  · rintro ⟨front, c, word, rfl, hblank, hword, rfl⟩
    have hsplit : (front ++ c :: word).length - keyword.length = (front ++ [c]).length := by
      simp only [List.length_append, List.length_cons, List.length_nil,
        length_of_sameIgnoringCase hword]
      omega
    have hcut : front ++ c :: word = (front ++ [c]) ++ word := by simp
    rw [beforeKeyword?, hsplit, hcut, List.drop_left, List.take_left]
    simp [hword, hblank]

/-- The keyword is not taken off in front of a text whose first word is another. -/
theorem afterKeyword?_eq_none
    (h : ∀ word ∈ (Text.words text).head?, Text.sameIgnoringCase word keyword = false) :
    afterKeyword? text = none := by
  refine Option.eq_none_iff_forall_not_mem.mpr fun rest hrest => ?_
  obtain ⟨word, c, back, rfl, hword, hblank, -⟩ := afterKeyword?_eq_some_iff.mp hrest
  have hfirst := h word (by
    rw [Text.words_append_blank hblank, words_of_sameIgnoringCase hword]
    rfl)
  rw [hword] at hfirst
  cases hfirst

/-- Nor behind a text whose last word is another. -/
theorem beforeKeyword?_eq_none
    (h : ∀ word ∈ (Text.words text).getLast?, Text.sameIgnoringCase word keyword = false) :
    beforeKeyword? text = none := by
  refine Option.eq_none_iff_forall_not_mem.mpr fun rest hrest => ?_
  obtain ⟨front, c, word, rfl, hblank, hword, -⟩ := beforeKeyword?_eq_some_iff.mp hrest
  have hlast := h word (by
    rw [Text.words_append_blank hblank, words_of_sameIgnoringCase hword, List.getLast?_concat]
    rfl)
  rw [hword] at hlast
  cases hlast

/-- A line whose first and last words are others asks for itself. -/
theorem ofLine_of_others {line : String}
    (hfirst : ∀ word ∈ (Text.words line.toList).head?, Text.sameIgnoringCase word keyword = false)
    (hlast : ∀ word ∈ (Text.words line.toList).getLast?,
      Text.sameIgnoringCase word keyword = false) :
    ofLine line = ⟨false, line⟩ := by
  have hself : Text.sameIgnoringCase line.toList keyword = false := by
    rw [← Bool.not_eq_true]
    intro hsame
    have hword := hfirst line.toList (by rw [words_of_sameIgnoringCase hsame]; rfl)
    rw [hsame] at hword
    cases hword
  simp [ofLine, afterKeyword?_eq_none hfirst, beforeKeyword?_eq_none hlast, hself]

theorem afterKeyword?_keyword (text : List Char) :
    afterKeyword? (keyword ++ ' ' :: text) = some (Text.trim (' ' :: text)) :=
  afterKeyword?_eq_some_iff.mpr ⟨keyword, ' ', text, rfl, beq_self_eq_true _, isBlank_space, rfl⟩

theorem beforeKeyword?_keyword (text : List Char) :
    beforeKeyword? (text ++ ' ' :: keyword) = some (Text.trim (text ++ [' '])) :=
  beforeKeyword?_eq_some_iff.mpr ⟨text, ' ', keyword, rfl, isBlank_space, beq_self_eq_true _, rfl⟩

end Request

theorem Command.ofWord_of_space {word : String} (h : ' ' ∈ word.toList) :
    ofWord word = .expression := by
  have hne : ∀ other : String, ' ' ∉ other.toList → word ≠ other := by
    rintro other hn rfl
    exact hn h
  simp [ofWord, hne "" (by decide), hne "h" (by decide), hne "help" (by decide),
    hne "q" (by decide), hne "quit" (by decide), hne "exit" (by decide), hne "vars" (by decide)]

theorem asksToClear_of_space {line : String} (h : ' ' ∈ line.toList) : asksToClear line = false := by
  rw [asksToClear, Text.sameIgnoringCase_of_blank h isBlank_space (by decide),
    Text.sameIgnoringCase_of_blank h isBlank_space (by decide), Bool.or_false]

/-- A trimmed expression that neither begins nor ends with the keyword. -/
structure Bare (line : String) : Prop where
  trimmed : Text.trim line.toList = line.toList
  command : Command.ofLine line = .expression
  keeps : asksToClear line = false
  first : ∀ word ∈ (Text.words line.toList).head?,
    Text.sameIgnoringCase word Request.keyword = false
  last : ∀ word ∈ (Text.words line.toList).getLast?,
    Text.sameIgnoringCase word Request.keyword = false

/-- The lines that ask for an expression, without its steps or with them. -/
inductive Asks (line : String) : Bool → String → Prop
  | bare : Asks line false line
  | before : Asks line true ("details " ++ line)
  | behind : Asks line true (line ++ " details")

namespace Bare

variable {line text : String} {detailed : Bool}

theorem ne_empty (h : Bare line) : line ≠ "" := by
  rintro rfl
  exact absurd h.command (by decide)

theorem toList_ne_nil (h : Bare line) : line.toList ≠ [] :=
  fun hn => h.ne_empty (String.toList_inj.mp hn)

theorem words_ne_nil (h : Bare line) : Text.words line.toList ≠ [] := by
  obtain ⟨c, rest, hline⟩ := List.exists_cons_of_ne_nil h.toList_ne_nil
  refine Text.words_ne_nil (c := c) (by simp [hline]) ?_
  exact (Text.trim_eq_self_iff.mp h.trimmed).1 c (by rw [hline]; rfl)

theorem toList_before (line : String) :
    ("details " ++ line).toList = Request.keyword ++ ' ' :: line.toList := by
  rw [String.toList_append]
  rfl

theorem toList_behind (line : String) :
    (line ++ " details").toList = line.toList ++ ' ' :: Request.keyword := by
  rw [String.toList_append]
  rfl

theorem words_behind (line : String) :
    Text.words (line ++ " details").toList = Text.words line.toList ++ [Request.keyword] := by
  have hkeyword : Text.words Request.keyword = [Request.keyword] := by decide
  rw [toList_behind, Text.words_append_blank isBlank_space, hkeyword]

/-- A bare expression asks for itself, and only the keyword asks for steps. -/
theorem request_of_asks (h : Bare line) (ha : Asks line detailed text) :
    Request.ofLine text = ⟨detailed, line⟩ := by
  cases ha with
  | bare => exact Request.ofLine_of_others h.first h.last
  | before =>
      have htrim : Text.trim (' ' :: line.toList) = line.toList := by
        rw [Text.trim_blank_cons isBlank_space, h.trimmed]
      rw [Request.ofLine, toList_before]
      simp only [Request.afterKeyword?_keyword, htrim, String.ofList_toList]
  | behind =>
      have hfirst : ∀ word ∈ (Text.words (line ++ " details").toList).head?,
          Text.sameIgnoringCase word Request.keyword = false := by
        rw [words_behind, List.head?_append_of_ne_nil _ h.words_ne_nil]
        exact h.first
      have hafter := Request.afterKeyword?_eq_none hfirst
      rw [toList_behind] at hafter
      rw [Request.ofLine, toList_behind]
      simp only [hafter, Request.beforeKeyword?_keyword, Text.trim_append_blank isBlank_space,
        h.trimmed, String.ofList_toList]

theorem trimmed_of_asks (h : Bare line) (ha : Asks line detailed text) :
    Text.trim text.toList = text.toList := by
  obtain ⟨hhead, hlast⟩ := Text.trim_eq_self_iff.mp h.trimmed
  cases ha with
  | bare => exact h.trimmed
  | before =>
      rw [toList_before, Text.trim_eq_self_iff, List.getLast?_append_of_ne_nil _ (List.cons_ne_nil _ _),
        List.getLast?_cons_of_ne_nil h.toList_ne_nil]
      refine ⟨?_, hlast⟩
      intro c hm
      obtain rfl : 'd' = c := Option.some.inj hm
      decide
  | behind =>
      rw [toList_behind, Text.trim_eq_self_iff, List.head?_append_of_ne_nil _ h.toList_ne_nil,
        List.getLast?_append_of_ne_nil _ (List.cons_ne_nil _ _)]
      refine ⟨hhead, ?_⟩
      intro c hm
      obtain rfl : 's' = c := Option.some.inj hm
      decide

/-- With a space in it a line is neither a command nor asks for an empty history. -/
theorem command_of_asks (h : Bare line) (ha : Asks line detailed text) :
    Command.ofLine text = .expression ∧ asksToClear text = false := by
  have hspace (hm : ' ' ∈ text.toList) :
      Command.ofLine text = .expression ∧ asksToClear text = false := by
    refine ⟨?_, asksToClear_of_space hm⟩
    rw [Command.ofLine, h.trimmed_of_asks ha, String.ofList_toList]
    exact Command.ofWord_of_space hm
  cases ha with
  | bare => exact ⟨h.command, h.keeps⟩
  | before => exact hspace (by rw [toList_before]; simp)
  | behind => exact hspace (by rw [toList_behind]; simp)

end Bare

end Reckoner
