import Mathlib.Data.List.Basic
import Reckoner.InputLine
import Reckoner.Proofs.Clusters

/-! # The cursor of the input line

A character that is put in or taken out may join the clusters beside it or part
them. The clusters left of the cursor stay what they are, so the cursor never
passes the end, whatever is done to the line. Then the bytes that a key takes out
lie between characters, and no step over words reads past the last cluster. -/

namespace Reckoner
namespace InputLine

open Unicode

variable {line : InputLine}

/-- What may be done to a line. -/
inductive Edit where
  | insert (c : Char)
  | backspace
  | delete
  | left
  | right
  | home
  | lineEnd
  | word (forward : Bool)
  | set (text : String)
  | clear
  /-- Empties the line for whoever takes its text. -/
  | take
  deriving DecidableEq, Repr

def edit (line : InputLine) : Edit → InputLine
  | .insert c => line.insert c
  | .backspace => line.backspace
  | .delete => line.delete
  | .left => line.goLeft
  | .right => line.goRight
  | .home => line.goHome
  | .lineEnd => line.goEnd
  | .word forward => if forward then line.goWordRight else line.goWordLeft
  | .set text => .ofText text
  | .clear | .take => .empty

def editAll (line : InputLine) (edits : List Edit) : InputLine := edits.foldl edit line

/-! ## The cursor stays inside -/

/-- The clusters left of the cursor are those of the text left of it. -/
theorem clusters_before (line : InputLine) :
    Unicode.clusters line.before = line.clusters.take line.cursor :=
  clusters_flatten_take line.chars line.cursor

theorem length_clusters_before (h : line.cursor ≤ line.size) :
    (Unicode.clusters line.before).length = line.cursor := by
  rw [clusters_before, List.length_take]
  exact Nat.min_eq_left h

theorem cursor_insert_le (line : InputLine) (c : Char) :
    (line.insert c).cursor ≤ (line.insert c).size :=
  length_clusters_le_append (line.before ++ [c]) line.after

theorem cursor_delete_le (h : line.cursor ≤ line.size) : line.delete.cursor ≤ line.delete.size := by
  have hle := length_clusters_le_append line.before (line.clusters.drop (line.cursor + 1)).flatten
  rwa [length_clusters_before h] at hle

theorem cursor_backspace_le (h : line.cursor ≤ line.size) :
    line.backspace.cursor ≤ line.backspace.size := by
  have hback : ({ line with cursor := line.cursor - 1 } : InputLine).cursor ≤ line.size :=
    Nat.le_trans (Nat.sub_le _ _) h
  unfold backspace
  split
  · exact h
  · exact cursor_delete_le hback

theorem wordThenGap_le (clusters : List (List Char)) : wordThenGap clusters ≤ clusters.length := by
  have hword := (List.takeWhile_sublist (l := clusters) (!Text.isAllBlank ·)).length_le
  have hgap := (List.takeWhile_sublist
    (l := clusters.drop (clusters.takeWhile (!Text.isAllBlank ·)).length)
    (Text.isAllBlank ·)).length_le
  rw [List.length_drop] at hgap
  simp only [wordThenGap]
  omega

/-- Every edit leaves the cursor inside the text. -/
theorem cursor_edit_le (h : line.cursor ≤ line.size) (change : Edit) :
    (line.edit change).cursor ≤ (line.edit change).size := by
  cases change with
  | insert c => exact cursor_insert_le line c
  | backspace => exact cursor_backspace_le h
  | delete => exact cursor_delete_le h
  | left => exact Nat.le_trans (Nat.sub_le _ _) h
  | right => exact Nat.min_le_right _ _
  | home => exact Nat.zero_le _
  | lineEnd => exact Nat.le_refl _
  | word forward =>
      cases forward with
      | false => exact Nat.le_trans (Nat.sub_le _ _) h
      | true =>
          have hle := wordThenGap_le (line.clusters.drop line.cursor)
          rw [List.length_drop] at hle
          exact Nat.add_le_of_le_sub' h hle
  | set text => exact Nat.le_refl _
  | clear | take => exact Nat.zero_le _

theorem cursor_editAll_le (h : line.cursor ≤ line.size) (edits : List Edit) :
    (line.editAll edits).cursor ≤ (line.editAll edits).size := by
  induction edits generalizing line with
  | nil => exact h
  | cons change edits ih => exact ih (cursor_edit_le h change)

/-! ## Steps over words -/

/-- Steps right over clusters that are blank, or over ones that are not. Each is
read at its place; none when nothing stands there. -/
def stepRight? (blank : Bool) (clusters : List (List Char)) (place : Nat) : Option Nat :=
  if place < clusters.length then
    match clusters[place]? with
    | some cluster =>
        if Text.isAllBlank cluster = blank then stepRight? blank clusters (place + 1) else some place
    | none => none
  else some place
termination_by clusters.length - place

/-- Steps left in the same way. -/
def stepLeft? (blank : Bool) (clusters : List (List Char)) : Nat → Option Nat
  | 0 => some 0
  | place + 1 =>
      match clusters[place]? with
      | some cluster =>
          if Text.isAllBlank cluster = blank then stepLeft? blank clusters place
          else some (place + 1)
      | none => none

theorem drop_of_getElem? {clusters : List (List Char)} {place : Nat} {cluster : List Char}
    (h : clusters[place]? = some cluster) :
    clusters.drop place = cluster :: clusters.drop (place + 1) := by
  rw [List.drop_eq_getElem?_toList_append, h]
  rfl

theorem stepRight?_eq (blank : Bool) (clusters : List (List Char)) (place : Nat) :
    stepRight? blank clusters place =
      some (place + ((clusters.drop place).takeWhile (Text.isAllBlank · = blank)).length) := by
  fun_induction stepRight? blank clusters place with
  | case1 place hlt cluster hc hblank ih =>
      rw [ih, drop_of_getElem? hc, List.takeWhile_cons_of_pos (by simpa using hblank), List.length_cons]
      congr 1
      omega
  | case2 place hlt cluster hc hblank =>
      rw [drop_of_getElem? hc, List.takeWhile_cons_of_neg (by simpa using hblank)]
      rfl
  | case3 place hlt hc => simp [hlt] at hc
  | case4 place hge =>
      rw [List.drop_eq_nil_of_le (Nat.not_lt.mp hge)]
      rfl

/-- A step left from inside the text reads only what is there. -/
theorem stepLeft?_eq (blank : Bool) (clusters : List (List Char)) {place : Nat}
    (h : place ≤ clusters.length) :
    stepLeft? blank clusters place =
      some (place - ((clusters.take place).reverse.takeWhile
        (Text.isAllBlank · = blank)).length) := by
  induction place with
  | zero => rfl
  | succ place ih =>
      obtain ⟨cluster, hc⟩ : ∃ cluster, clusters[place]? = some cluster :=
        ⟨_, List.getElem?_eq_getElem h⟩
      have htake : (clusters.take (place + 1)).reverse = cluster :: (clusters.take place).reverse := by
        rw [List.take_add_one, hc]
        simp
      rw [stepLeft?, hc, htake]
      by_cases hblank : Text.isAllBlank cluster = blank
      · rw [List.takeWhile_cons_of_pos (by simpa using hblank), List.length_cons,
          Nat.add_sub_add_right, ← ih (Nat.le_of_succ_le h)]
        exact if_pos hblank
      · rw [List.takeWhile_cons_of_neg (by simpa using hblank)]
        exact if_neg hblank

/-- The step to the right over a word and the blanks behind it. -/
def stepWordRight? (line : InputLine) : Option Nat :=
  (stepRight? false line.clusters line.cursor).bind (stepRight? true line.clusters)

/-- The step to the left over blanks and the word before them. -/
def stepWordLeft? (line : InputLine) : Option Nat :=
  (stepLeft? true line.clusters line.cursor).bind (stepLeft? false line.clusters)

theorem stepWordRight?_eq (line : InputLine) :
    line.stepWordRight? = some line.goWordRight.cursor := by
  simp only [stepWordRight?, stepRight?_eq, Option.bind_some, goWordRight, wordThenGap,
    List.drop_drop, Bool.decide_eq_false, Bool.decide_eq_true, Nat.add_assoc]

theorem stepWordLeft?_eq (h : line.cursor ≤ line.size) :
    line.stepWordLeft? = some line.goWordLeft.cursor := by
  have hgap := stepLeft?_eq true line.clusters h
  have hle : line.cursor - ((line.clusters.take line.cursor).reverse.takeWhile
      (Text.isAllBlank · = true)).length ≤ line.clusters.length :=
    Nat.le_trans (Nat.sub_le _ _) h
  rw [stepWordLeft?, hgap, Option.bind_some, stepLeft?_eq false line.clusters hle]
  simp only [goWordLeft, gapThenWord, List.drop_reverse, List.length_take, List.take_take,
    Bool.decide_eq_false, Bool.decide_eq_true]
  have hlen : min line.cursor line.clusters.length = line.cursor := Nat.min_eq_left h
  rw [hlen, Nat.min_eq_left (Nat.sub_le _ _), Nat.sub_sub]

/-! ## Positions in bytes -/

/-- The bytes at which clusters begin, when the first one begins at `start`. -/
def startsFrom (start : Nat) : List (List Char) → List Nat
  | [] => []
  | cluster :: rest => start :: startsFrom (start + (String.ofList cluster).utf8ByteSize) rest

/-- The byte at which a cluster begins; the end of the text when there is none. -/
def byteIndex (line : InputLine) (place : Nat) : String.Pos.Raw :=
  ⟨(startsFrom 0 line.clusters)[place]?.getD line.text.utf8ByteSize⟩

theorem getElem?_startsFrom (start : Nat) (clusters : List (List Char)) (place : Nat) :
    (startsFrom start clusters)[place]? =
      if place < clusters.length then
        some (start + (String.ofList (clusters.take place).flatten).utf8ByteSize)
      else none := by
  induction clusters generalizing start place with
  | nil => rfl
  | cons cluster rest ih =>
      cases place with
      | zero => simp [startsFrom]
      | succ place =>
          simp only [startsFrom, List.getElem?_cons_succ, ih, List.length_cons,
            Nat.add_lt_add_iff_right, List.take_succ_cons, List.flatten_cons, String.ofList_append,
            String.utf8ByteSize_append, Nat.add_assoc]

/-- A cluster begins behind the bytes of those before it. -/
theorem byteIndex_eq (line : InputLine) (place : Nat) :
    line.byteIndex place = (String.ofList (line.clusters.take place).flatten).rawEndPos := by
  rw [byteIndex, getElem?_startsFrom]
  split
  · simp [String.rawEndPos]
  · rename_i hge
    rw [List.take_of_length_le (Nat.not_lt.mp hge), clusters, flatten_clusters]
    rfl

/-- The bytes between two positions have been taken out of a text. Both positions
lie between characters, the first not behind the second. -/
structure Drained (text : String) (start stop : String.Pos.Raw) (rest : String) : Prop where
  start_valid : start.IsValid text
  stop_valid : stop.IsValid text
  le : start ≤ stop
  rest_eq : ∃ front removed back, text = front ++ removed ++ back ∧
    front.rawEndPos = start ∧ (front ++ removed).rawEndPos = stop ∧ rest = front ++ back

theorem drained_append (front removed back : String) :
    Drained (front ++ removed ++ back) front.rawEndPos (front ++ removed).rawEndPos
      (front ++ back) where
  start_valid := String.Pos.Raw.isValid_iff_exists_append.mpr
    ⟨front, removed ++ back, String.append_assoc, rfl⟩
  stop_valid := String.Pos.Raw.isValid_iff_exists_append.mpr ⟨front ++ removed, back, rfl, rfl⟩
  le := by
    rw [String.Pos.Raw.le_iff]
    simp [String.rawEndPos]
  rest_eq := ⟨front, removed, back, rfl, rfl, rfl, rfl⟩

/-- Deleting takes out the bytes of the cluster at the cursor. -/
theorem drained_delete (line : InputLine) :
    Drained line.text (line.byteIndex line.cursor) (line.byteIndex (line.cursor + 1))
      line.delete.text := by
  have htake : line.clusters.take (line.cursor + 1) =
      line.clusters.take line.cursor ++ (line.clusters.drop line.cursor).take 1 :=
    List.take_add
  have htext : line.chars = (line.clusters.take (line.cursor + 1)).flatten ++
      (line.clusters.drop (line.cursor + 1)).flatten := by
    rw [← List.flatten_append, List.take_append_drop, clusters, flatten_clusters]
  have h := drained_append (String.ofList (line.clusters.take line.cursor).flatten)
    (String.ofList ((line.clusters.drop line.cursor).take 1).flatten)
    (String.ofList (line.clusters.drop (line.cursor + 1)).flatten)
  rwa [← String.ofList_append, ← List.flatten_append, ← htake, ← String.ofList_append, ← htext,
    ← byteIndex_eq, ← byteIndex_eq, ← String.ofList_append] at h

/-- Backspace takes out the bytes of the cluster before the cursor, if there is one. -/
theorem drained_backspace (line : InputLine) :
    Drained line.text (line.byteIndex (line.cursor - 1)) (line.byteIndex line.cursor)
      line.backspace.text := by
  obtain ⟨chars, cursor⟩ := line
  cases cursor with
  | zero =>
      have hzero : (InputLine.mk chars 0).byteIndex 0 = "".rawEndPos := by
        rw [byteIndex_eq, List.take_zero]
        rfl
      have h := drained_append "" "" (String.ofList chars)
      rwa [String.empty_append, String.empty_append, ← hzero] at h
  | succ cursor => exact drained_delete ⟨chars, cursor⟩

/-- The width left of the cursor is that of the text before its byte. -/
theorem exists_widthBefore (line : InputLine) :
    ∃ front back, line.text = front ++ back ∧ front.rawEndPos = line.byteIndex line.cursor ∧
      line.widthBefore = width front.toList := by
  refine ⟨String.ofList line.before, String.ofList line.after, ?_, (byteIndex_eq line _).symm, ?_⟩
  · rw [← String.ofList_append, before_append_after, text]
  · rw [String.toList_ofList, widthBefore]

/-- The cursor is never behind the last cluster, whatever has been done to a line.
So the bytes that deleting and backspace take out, and those whose width is asked
for, end between characters, and steps over words read clusters that are there. -/
theorem cursor_le_size (edits : List Edit) :
    let line := empty.editAll edits
    line.cursor ≤ line.size ∧
      Drained line.text (line.byteIndex line.cursor) (line.byteIndex (line.cursor + 1))
        line.delete.text ∧
      Drained line.text (line.byteIndex (line.cursor - 1)) (line.byteIndex line.cursor)
        line.backspace.text ∧
      (∃ front back, line.text = front ++ back ∧ front.rawEndPos = line.byteIndex line.cursor ∧
        line.widthBefore = width front.toList) ∧
      line.stepWordRight? = some line.goWordRight.cursor ∧
      line.stepWordLeft? = some line.goWordLeft.cursor := by
  intro line
  have hc : line.cursor ≤ line.size := cursor_editAll_le (Nat.le_refl 0) edits
  exact ⟨hc, drained_delete line, drained_backspace line, exists_widthBefore line,
    stepWordRight?_eq line, stepWordLeft?_eq hc⟩

/-- Without the line break between them the accent joins its letter, and the cursor
stands behind the cluster of both. -/
example :
    let line := empty.editAll [.set "e\n\u0301", .left, .backspace]
    line.cursor = 1 ∧ line.size = 1 := by
  decide +kernel

end InputLine
end Reckoner
