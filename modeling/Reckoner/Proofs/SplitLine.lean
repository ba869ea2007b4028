import Mathlib.Data.List.DropRight
import Reckoner.Proofs.Columns
import Reckoner.Proofs.InputLine

/-! # The input line as two texts

On printable characters the clusters are the characters. The line is then the text left of
the cursor and the text right of it, and each edit works at the ends that meet at the cursor. -/

namespace Reckoner

open Unicode

/-- A text parted at the cursor. -/
@[ext]
structure SplitLine where
  left : List Char
  right : List Char
  deriving DecidableEq, Repr

namespace InputLine

/-- The edit puts in nothing but printable characters. -/
def Edit.Printable : Edit → Prop
  | .insert c => 0x20 ≤ c.toNat ∧ c.toNat ≤ 0x7e
  | .set text => ∀ c ∈ text.toList, 0x20 ≤ c.toNat ∧ c.toNat ≤ 0x7e
  | _ => True

instance : DecidablePred Edit.Printable
  | .insert _ => inferInstanceAs (Decidable (_ ∧ _))
  | .set text => List.decidableBAll _ text.toList
  | .backspace | .delete | .left | .right | .home | .lineEnd | .word _ | .clear | .take =>
      isTrue trivial

/-- The text that an edit hands over. -/
def taken? (line : InputLine) : Edit → Option String
  | .take => some line.text
  | _ => none

end InputLine

namespace SplitLine

def empty : SplitLine := ⟨[], []⟩

def chars (split : SplitLine) : List Char := split.left ++ split.right

/-- Characters are put in and taken out where the texts meet, and moves carry them from one
text to the other: single ones, a word with the blanks behind it, or all. -/
def edit (split : SplitLine) : InputLine.Edit → SplitLine
  | .insert c => ⟨split.left ++ [c], split.right⟩
  | .backspace => ⟨split.left.dropLast, split.right⟩
  | .delete => ⟨split.left, split.right.tail⟩
  | .left => ⟨split.left.dropLast, split.left.getLast?.toList ++ split.right⟩
  | .right => ⟨split.left ++ split.right.head?.toList, split.right.tail⟩
  | .home => ⟨[], split.left ++ split.right⟩
  | .lineEnd => ⟨split.left ++ split.right, []⟩
  | .word true =>
      let behind := split.right.dropWhile (!isBlank ·)
      ⟨split.left ++ split.right.takeWhile (!isBlank ·) ++ behind.takeWhile isBlank,
        behind.dropWhile isBlank⟩
  | .word false =>
      let front := split.left.rdropWhile isBlank
      ⟨front.rdropWhile (!isBlank ·),
        front.rtakeWhile (!isBlank ·) ++ split.left.rtakeWhile isBlank ++ split.right⟩
  | .set text => ⟨text.toList, []⟩
  | .clear | .take => empty

def editAll (split : SplitLine) (edits : List InputLine.Edit) : SplitLine := edits.foldl edit split

def taken? (split : SplitLine) : InputLine.Edit → Option String
  | .take => some (String.ofList split.chars)
  | _ => none

/-- Both texts in one line, with the cursor between them. -/
def line (split : SplitLine) : InputLine := ⟨split.chars, split.left.length⟩

/-- Every character is a cluster and takes a column. -/
def Narrow (split : SplitLine) : Prop := ∀ c ∈ split.chars, Unicode.Narrow c

variable {split : SplitLine} {text : List Char} {change : InputLine.Edit}

/-! ## Moves keep the text -/

theorem chars_left (split : SplitLine) : (split.edit .left).chars = split.chars := by
  obtain ⟨left, right⟩ := split
  obtain rfl | ⟨front, c, rfl⟩ := left.eq_nil_or_concat' <;> simp [edit, chars]

theorem chars_right (split : SplitLine) : (split.edit .right).chars = split.chars := by
  obtain ⟨left, right⟩ := split
  cases right <;> simp [edit, chars]

theorem chars_word (split : SplitLine) (forward : Bool) :
    (split.edit (.word forward)).chars = split.chars := by
  cases forward with
  | true => simp [edit, chars]
  | false =>
      simp only [edit, chars]
      rw [← List.append_assoc, ← List.append_assoc, List.rdropWhile_append_rtakeWhile,
        List.rdropWhile_append_rtakeWhile]

theorem chars_lineEnd (split : SplitLine) : (split.edit .lineEnd).chars = split.chars :=
  List.append_nil _

/-! ## Narrow texts -/

theorem Narrow.left (h : split.Narrow) : ∀ c ∈ split.left, Unicode.Narrow c :=
  fun c hc => h c (List.mem_append_left _ hc)

theorem narrow_printable {c : Char} (h : 0x20 ≤ c.toNat ∧ c.toNat ≤ 0x7e) : Unicode.Narrow c :=
  narrow_of_printable h.1 (Nat.lt_succ_of_le h.2)

theorem Narrow.insert (h : split.Narrow) {c : Char} (hc : Unicode.Narrow c) :
    (split.edit (.insert c)).Narrow := by
  intro d hd
  simp only [SplitLine.edit, chars, List.append_assoc, List.singleton_append, List.mem_append,
    List.mem_cons] at hd
  obtain hd | rfl | hd := hd
  · exact h d (List.mem_append_left _ hd)
  · exact hc
  · exact h d (List.mem_append_right _ hd)

/-- Printable characters keep the line narrow. -/
theorem Narrow.edit (h : split.Narrow) (hc : change.Printable) : (split.edit change).Narrow := by
  cases change with
  | insert c => exact h.insert (narrow_printable hc)
  | backspace => exact fun c hm => h c (((List.dropLast_sublist _).append_right _).mem hm)
  | delete => exact fun c hm => h c (((List.tail_sublist _).append_left _).mem hm)
  | left => rwa [Narrow, chars_left]
  | right => rwa [Narrow, chars_right]
  | home => exact h
  | lineEnd => rwa [Narrow, chars_lineEnd]
  | word forward => rwa [Narrow, chars_word]
  | set text =>
      intro c hm
      rw [chars, SplitLine.edit, List.append_nil] at hm
      exact narrow_printable (hc c hm)
  | clear | take => exact List.forall_mem_nil _

/-! ## What the line shows -/

theorem clusters_line (h : split.Narrow) : split.line.clusters = split.chars.map ([·]) :=
  clusters_of_narrow h

theorem size_line (h : split.Narrow) : split.line.size = split.chars.length := by
  rw [InputLine.size, clusters_line h, List.length_map]

theorem take_clusters_line (h : split.Narrow) :
    split.line.clusters.take split.line.cursor = split.left.map ([·]) := by
  rw [clusters_line h, ← List.map_take, line, chars, List.take_left]

theorem drop_clusters_line (h : split.Narrow) :
    split.line.clusters.drop split.line.cursor = split.right.map ([·]) := by
  rw [clusters_line h, ← List.map_drop, line, chars, List.drop_left]

theorem before_line (h : split.Narrow) : split.line.before = split.left := by
  rw [InputLine.before, take_clusters_line h, flatten_singletons]

theorem after_line (h : split.Narrow) : split.line.after = split.right := by
  rw [InputLine.after, drop_clusters_line h, flatten_singletons]

theorem widthBefore_line (h : split.Narrow) : split.line.widthBefore = split.left.length := by
  rw [InputLine.widthBefore, before_line h, width_of_narrow h.left]

theorem window_line (h : split.Narrow) (skip count : Nat) :
    split.line.window skip count = (split.chars.drop skip).take count := by
  rw [InputLine.window, clusters_line h, ← List.map_drop, ← List.map_take, flatten_singletons]

/-! ## Words -/

theorem isAllBlank_singleton (c : Char) : Text.isAllBlank [c] = isBlank c := by
  rw [Text.isAllBlank, List.all_cons, List.all_nil, Bool.and_true]

theorem takeWhile_singletons (p : List Char → Bool) (text : List Char) :
    (text.map ([·])).takeWhile p = (text.takeWhile (p [·])).map ([·]) :=
  List.takeWhile_map

theorem drop_takeWhile_singletons (p : List Char → Bool) (text : List Char) :
    (text.map ([·])).drop ((text.map ([·])).takeWhile p).length =
      (text.dropWhile (p [·])).map ([·]) := by
  induction text with
  | nil => rfl
  | cons c rest ih => cases hc : p [c] <;> simp [hc, ih]

theorem wordThenGap_singletons (text : List Char) :
    InputLine.wordThenGap (text.map ([·])) =
      (text.takeWhile (!isBlank ·)).length +
        ((text.dropWhile (!isBlank ·)).takeWhile isBlank).length := by
  rw [InputLine.wordThenGap, drop_takeWhile_singletons]
  simp only [takeWhile_singletons, List.length_map, isAllBlank_singleton]

theorem gapThenWord_singletons (text : List Char) :
    InputLine.gapThenWord (text.map ([·])).reverse =
      (text.rtakeWhile isBlank).length +
        ((text.rdropWhile isBlank).rtakeWhile (!isBlank ·)).length := by
  rw [InputLine.gapThenWord, ← List.map_reverse, drop_takeWhile_singletons]
  simp only [takeWhile_singletons, List.length_map, isAllBlank_singleton, List.rtakeWhile,
    List.rdropWhile, List.length_reverse, List.reverse_reverse]

theorem length_left_word (split : SplitLine) :
    (split.edit (.word false)).left.length =
      split.left.length - ((split.left.rtakeWhile isBlank).length +
        ((split.left.rdropWhile isBlank).rtakeWhile (!isBlank ·)).length) := by
  have hgap := congrArg List.length
    (List.rdropWhile_append_rtakeWhile (p := isBlank) (l := split.left))
  have hword := congrArg List.length
    (List.rdropWhile_append_rtakeWhile (p := (!isBlank ·)) (l := split.left.rdropWhile isBlank))
  rw [List.length_append] at hgap hword
  change ((split.left.rdropWhile isBlank).rdropWhile (!isBlank ·)).length = _
  omega

/-! ## Each edit -/

theorem delete_line (h : split.Narrow) : split.line.delete = (split.edit .delete).line := by
  have hdrop : (split.line.clusters.drop (split.line.cursor + 1)).flatten = split.right.tail := by
    rw [← List.drop_drop, drop_clusters_line h, ← List.map_drop, flatten_singletons, List.drop_one]
  rw [InputLine.delete, before_line h, hdrop]
  rfl

theorem backspace_line (h : split.Narrow) :
    split.line.backspace = (split.edit .backspace).line := by
  obtain ⟨left, right⟩ := split
  obtain rfl | ⟨front, c, rfl⟩ := left.eq_nil_or_concat'
  · rfl
  · -- The cursor steps over the last character, which is then deleted from the right.
    have hstep : ({ SplitLine.line ⟨front ++ [c], right⟩ with
        cursor := (front ++ [c]).length - 1 } : InputLine) = SplitLine.line ⟨front, c :: right⟩ := by
      simp [line, chars]
    have hnarrow : SplitLine.Narrow ⟨front, c :: right⟩ := by
      simpa [Narrow, chars] using h
    rw [InputLine.backspace, if_neg (by simp [line])]
    change InputLine.delete { SplitLine.line ⟨front ++ [c], right⟩ with
      cursor := (front ++ [c]).length - 1 } = _
    rw [hstep, delete_line hnarrow, edit, edit, List.dropLast_concat, List.tail_cons]

theorem insert_line (h : split.Narrow) {c : Char} (hc : Unicode.Narrow c) :
    split.line.insert c = (split.edit (.insert c)).line := by
  have hclusters : Unicode.clusters (split.left ++ [c]) = (split.left ++ [c]).map ([·]) :=
    clusters_of_narrow (h.insert hc).left
  rw [InputLine.insert, before_line h, after_line h, hclusters, List.length_map]
  rfl

theorem goLeft_line (split : SplitLine) : split.line.goLeft = (split.edit .left).line := by
  rw [InputLine.goLeft, line, line, chars_left, edit, List.length_dropLast]

theorem goRight_line (h : split.Narrow) : split.line.goRight = (split.edit .right).line := by
  have hcursor : min (split.left.length + 1) split.chars.length =
      (split.edit .right).left.length := by
    obtain ⟨left, right⟩ := split
    cases right <;> simp [edit, chars]
  rw [InputLine.goRight, size_line h, line, line, chars_right, hcursor]

theorem goEnd_line (h : split.Narrow) : split.line.goEnd = (split.edit .lineEnd).line := by
  rw [InputLine.goEnd, size_line h, line, line, chars_lineEnd]
  rfl

theorem goWordRight_line (h : split.Narrow) :
    split.line.goWordRight = (split.edit (.word true)).line := by
  rw [InputLine.goWordRight, drop_clusters_line h, wordThenGap_singletons, line, line, chars_word]
  simp [edit]

theorem goWordLeft_line (h : split.Narrow) :
    split.line.goWordLeft = (split.edit (.word false)).line := by
  rw [InputLine.goWordLeft, take_clusters_line h, gapThenWord_singletons, line, line, chars_word,
    length_left_word]

theorem ofText_eq_line {text : String} (h : ∀ c ∈ text.toList, Unicode.Narrow c) :
    InputLine.ofText text = (split.edit (.set text)).line := by
  rw [InputLine.ofText, InputLine.ofChars, clusters_of_narrow h, List.length_map, line, chars, edit,
    List.append_nil]

/-- An edit does to the line what it does to the two texts. -/
theorem edit_line (h : split.Narrow) (hc : change.Printable) :
    split.line.edit change = (split.edit change).line := by
  cases change with
  | insert c => exact insert_line h (narrow_printable hc)
  | backspace => exact backspace_line h
  | delete => exact delete_line h
  | left => exact goLeft_line split
  | right => exact goRight_line h
  | home => rfl
  | lineEnd => exact goEnd_line h
  | word forward =>
      cases forward with
      | true => exact goWordRight_line h
      | false => exact goWordLeft_line h
  | set text => exact ofText_eq_line fun c hm => narrow_printable (hc c hm)
  | clear | take => rfl

/-- So do all edits of a run, whose line stays narrow. -/
theorem editAll_line (h : split.Narrow) {edits : List InputLine.Edit}
    (hc : ∀ change ∈ edits, change.Printable) :
    (split.editAll edits).Narrow ∧ split.line.editAll edits = (split.editAll edits).line := by
  induction edits generalizing split with
  | nil => exact ⟨h, rfl⟩
  | cons change edits ih =>
      obtain ⟨hchange, hedits⟩ := List.forall_mem_cons.mp hc
      obtain ⟨hnarrow, hline⟩ := ih (h.edit hchange) hedits
      refine ⟨hnarrow, ?_⟩
      rw [← edit_line h hchange] at hline
      exact hline

/-- After any edits with printable characters the line shows the two texts of the same edits:
their characters, the cursor between them, its column and the slices of the whole. The line
that is taken is handed over with this text. -/
theorem shows_of_printable {edits : List InputLine.Edit} (hc : ∀ change ∈ edits, change.Printable) :
    let line := InputLine.empty.editAll edits
    let split := empty.editAll edits
    line.text = String.ofList (split.left ++ split.right) ∧
      line.cursor = split.left.length ∧ line.widthBefore = split.left.length ∧
      line.size = (split.left ++ split.right).length ∧
      (∀ skip count, line.window skip count = ((split.left ++ split.right).drop skip).take count) ∧
      ∀ change, line.taken? change = split.taken? change := by
  intro line split
  have hempty : empty.Narrow := List.forall_mem_nil _
  obtain ⟨hnarrow, hline⟩ := editAll_line hempty hc
  have hsplit : line = split.line := hline
  rw [hsplit]
  refine ⟨rfl, rfl, widthBefore_line hnarrow, size_line hnarrow, window_line hnarrow, ?_⟩
  intro change
  cases change <;> rfl

theorem shows_after_word_moves :
    let edits : List InputLine.Edit :=
      [.set "2 + 3", .word false, .backspace, .insert 'x', .word false, .delete, .home,
        .word true, .right, .insert '(', .left]
    (∀ change ∈ edits, change.Printable) ∧
      (InputLine.empty.editAll edits).text = "2 x(3" ∧
      (InputLine.empty.editAll edits).widthBefore = 3 ∧
      (InputLine.empty.editAll edits).taken? .take = some "2 x(3" := by
  intro edits
  have hc : ∀ change ∈ edits, change.Printable := by decide
  obtain ⟨htext, -, hwidth, -, -, htaken⟩ := shows_of_printable hc
  exact ⟨hc, htext, hwidth, htaken .take⟩

end SplitLine
end Reckoner
