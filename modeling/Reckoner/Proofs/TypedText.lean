import Mathlib.Data.List.Infix
import Reckoner.Proofs.InputLine

/-! # Text typed into the input line

The cursor counts clusters, so it stands nowhere inside one. A character that is put in
may take the first characters behind it into its cluster, and the next character then
goes behind those. So a typed text stays together as long as a cluster ends behind each
of its characters, and elsewhere it is parted by what completes the cluster. -/

namespace Reckoner
namespace Unicode

/-- A cluster of the whole text ends between these two parts of it. -/
def Parted (left right : List Char) : Prop :=
  ∃ count, ((clusters (left ++ right)).take count).flatten = left

/-- What the last cluster of a text takes from the text behind: as little as makes
a cluster end. -/
structure Completes (left joined right : List Char) : Prop where
  parted : Parted (left ++ joined) right
  least : ∀ front back, joined = front ++ back → back ≠ [] →
    ¬ Parted (left ++ front) (back ++ right)

variable {context : ClusterContext} {current left right : List Char}

/-- The cluster that has been begun goes on over some of the text. -/
theorem exists_clustersFrom_eq_cons (hc : current ≠ []) (context : ClusterContext)
    (text : List Char) : ∃ joined rest others, text = joined ++ rest ∧
      clustersFrom context current text = (current.reverse ++ joined) :: others := by
  induction text generalizing context current with
  | nil => exact ⟨[], [], [], rfl, by simp [clustersFrom, hc]⟩
  | cons c text ih =>
      rw [clustersFrom]
      split
      · obtain ⟨joined, rest, others, htext, hclusters⟩ :=
          ih (List.cons_ne_nil c current) (context.advance c)
        refine ⟨c :: joined, rest, others, congrArg (c :: ·) htext, ?_⟩
        rw [hclusters, List.reverse_cons, List.append_assoc]
        rfl
      · refine ⟨[], c :: text, clustersFrom (context.advance c) [c] text, rfl, ?_⟩
        rw [if_neg (by simpa using hc), List.append_nil]

/-- More text goes on with the last cluster, and the others stay what they are. -/
theorem exists_clusters_append (hleft : left ≠ []) (right : List Char) :
    ∃ others last joined rest more, clusters left = others ++ [last] ∧ right = joined ++ rest ∧
      clusters (left ++ right) = others ++ (last ++ joined) :: more := by
  have hne : clusters left ≠ [] := by
    intro hn
    exact hleft (by rw [← flatten_clusters left, hn, List.flatten_nil])
  obtain ⟨others, last, hclusters⟩ := (List.eq_nil_or_concat _).resolve_left hne
  rw [List.concat_eq_append] at hclusters
  have hmem : last ∈ clusters left := by simp [hclusters]
  have hlast : last ≠ [] := ne_nil_of_mem_clusters hmem
  obtain ⟨joined, rest, more, hright, hbegun⟩ := exists_clustersFrom_eq_cons
    (mt List.reverse_eq_nil_iff.mp hlast) (left.foldl ClusterContext.advance .start) right
  refine ⟨others, last, joined, rest, more, hclusters, hright, ?_⟩
  rw [clusters_append, hclusters, List.getLastD_concat, hbegun, List.dropLast_concat,
    List.reverse_reverse]

/-- As many clusters as a text has by itself hold it and what completes it. -/
theorem exists_completes (hleft : left ≠ []) (right : List Char) :
    ∃ joined rest, right = joined ++ rest ∧
      ((clusters (left ++ right)).take (clusters left).length).flatten = left ++ joined ∧
      Completes left joined rest := by
  obtain ⟨others, last, joined, rest, more, hclusters, rfl, hwhole⟩ :=
    exists_clusters_append hleft right
  have hmem : last ∈ clusters left := by simp [hclusters]
  have hlast : last ≠ [] := ne_nil_of_mem_clusters hmem
  have htext : left = others.flatten ++ last := by
    rw [← flatten_clusters left, hclusters, List.flatten_append, List.flatten_singleton]
  have hholds : ((clusters (left ++ (joined ++ rest))).take (others.length + 1)).flatten =
      left ++ joined := by
    rw [hwhole, List.take_length_add_append, List.flatten_append, List.take_succ_cons,
      List.take_zero, List.flatten_singleton, ← List.append_assoc, ← htext]
  refine ⟨joined, rest, rfl, by simpa [hclusters] using hholds, ⟨⟨others.length + 1, ?_⟩, ?_⟩⟩
  · rwa [List.append_assoc]
  · rintro front back rfl hback ⟨count, hcount⟩
    rw [show left ++ front ++ (back ++ rest) = left ++ (front ++ back ++ rest) by simp] at hcount
    rcases Nat.lt_or_ge others.length count with hmany | hfew
    · -- so many clusters hold all that completes the text
      have hle := (List.take_prefix_take_left (l := clusters (left ++ (front ++ back ++ rest)))
        hmany).flatten.length_le
      rw [hholds, hcount] at hle
      simp only [List.length_append] at hle
      exact hback (List.eq_nil_of_length_eq_zero (by omega))
    · -- so few clusters do not hold the text
      have hle := (List.take_prefix count others).flatten.length_le
      have hlt : 0 < last.length := List.length_pos_iff.mpr hlast
      rw [hwhole, List.take_append_of_le_length hfew] at hcount
      rw [hcount, htext] at hle
      simp only [List.length_append] at hle
      omega

/-- A text is completed in one way. -/
theorem Completes.unique {joined joined' right' : List Char} (h : Completes left joined right)
    (h' : Completes left joined' right') (htext : joined ++ right = joined' ++ right') :
    joined = joined' ∧ right = right' := by
  obtain ⟨more, hmore, hright⟩ | ⟨more, hmore, hright⟩ := List.append_eq_append_iff.mp htext
  · have hnil : more = [] := by
      by_contra hne
      exact h'.least joined more hmore hne (hright ▸ h.parted)
    simp_all
  · have hnil : more = [] := by
      by_contra hne
      exact h.least joined' more hmore hne (hright ▸ h'.parted)
    simp_all

end Unicode

open Unicode

/-- What a text becomes between two others when it is put in character by character:
what completes the cluster of a character stands in front of the next one. -/
inductive Typed : List Char → List Char → List Char → List Char → Prop
  | done (left right : List Char) : Typed left [] right (left ++ right)
  | char {left joined text right whole : List Char} {c : Char}
      (hjoined : Completes (left ++ [c]) joined right)
      (hrest : Typed (left ++ [c] ++ joined) text right whole) :
      Typed left (c :: text) (joined ++ right) whole

namespace Typed

variable {left text right whole whole' : List Char}

theorem unique (h : Typed left text right whole) (h' : Typed left text right whole') :
    whole = whole' := by
  induction h generalizing whole' with
  | done left right => cases h' with | done => rfl
  | @char left joined text right whole c hjoined hrest ih =>
      generalize hbehind : joined ++ right = behind at h'
      cases h' with
      | @char _ joined' _ right' _ _ hjoined' hrest' =>
          obtain ⟨rfl, rfl⟩ := hjoined.unique hjoined' hbehind
          exact ih hrest'

/-- Where a cluster ends behind each character, nothing parts the text. -/
theorem eq_append (h : Typed left text right whole)
    (hparted : ∀ front back, text = front ++ back → front ≠ [] → back ≠ [] →
      Parted (left ++ front) right) : whole = left ++ text ++ right := by
  induction h with
  | done left right => rw [List.append_nil]
  | @char left joined text right whole c hjoined hrest ih =>
      by_cases hlast : text = []
      · obtain rfl := hlast
        cases hrest with
        | done => simp
      · -- more is to come, so a cluster ends behind the character already
        have hnone : joined = [] := by
          by_contra hne
          apply hjoined.least [] joined rfl hne
          rw [List.append_nil]
          exact hparted [c] text rfl (List.cons_ne_nil c []) hlast
        subst hnone
        rw [List.append_nil] at ih
        rw [ih]
        · simp
        · intro front back htext hfront hback
          rw [List.append_assoc]
          exact hparted (c :: front) back (congrArg (c :: ·) htext) (List.cons_ne_nil c front) hback

end Typed

namespace InputLine

/-- Behind a character that is put in stands what does not complete its cluster. -/
theorem exists_completes_insert (line : InputLine) (c : Char) :
    ∃ joined, line.after = joined ++ (line.insert c).after ∧
      (line.insert c).before = line.before ++ [c] ++ joined ∧
      Completes (line.before ++ [c]) joined (line.insert c).after := by
  obtain ⟨joined, rest, hafter, hbefore, hcompletes⟩ :=
    exists_completes (show line.before ++ [c] ≠ [] by simp) line.after
  have hfront : (line.insert c).before = line.before ++ [c] ++ joined := hbefore
  have hsplit : (line.insert c).before ++ (line.insert c).after =
      line.before ++ [c] ++ (joined ++ rest) := by
    rw [before_append_after, ← hafter]
    rfl
  rw [hfront, List.append_assoc, List.append_cancel_left_eq, List.append_cancel_left_eq] at hsplit
  exact ⟨joined, by rw [hsplit, hafter], hfront, hsplit ▸ hcompletes⟩

theorem typed_insertText (line : InputLine) (text : List Char) :
    Typed line.before text line.after (line.insertText text).chars := by
  induction text generalizing line with
  | nil =>
      rw [insertText, List.foldl_nil, ← before_append_after]
      exact .done _ _
  | cons c text ih =>
      obtain ⟨joined, hafter, hbefore, hcompletes⟩ := exists_completes_insert line c
      rw [hafter]
      apply Typed.char hcompletes
      rw [← hbefore]
      exact ih (line.insert c)

/-- The characters of a text that is typed at the cursor come in order between the text
left of its byte and the text right of it, and a character of the latter stands among them
only where it completes a cluster. So they stay together if a cluster ends behind each of
them but the last. -/
theorem insertText_together (line : InputLine) (text : List Char) :
    line.chars = line.before ++ line.after ∧
      (String.ofList line.before).rawEndPos = line.byteIndex line.cursor ∧
      (∀ whole, Typed line.before text line.after whole ↔ (line.insertText text).chars = whole) ∧
      ((∀ front back, text = front ++ back → front ≠ [] → back ≠ [] →
          Parted (line.before ++ front) line.after) →
        (line.insertText text).chars = line.before ++ text ++ line.after) := by
  have htyped := line.typed_insertText text
  refine ⟨line.before_append_after.symm, (line.byteIndex_eq line.cursor).symm, ?_, htyped.eq_append⟩
  intro whole
  constructor
  · exact htyped.unique
  · rintro rfl
    exact htyped

/-- An accent stays behind its letter in front of a flag. -/
theorem insertText_together_before_flag :
    let line := empty.editAll [.insert 'a', .insert '🇦', .insert '🇧', .left]
    line.before = ['a'] ∧ line.after = ['🇦', '🇧'] ∧
      Parted ['a', 'e'] ['🇦', '🇧'] ∧ Parted ['a', 'e', '\u0301'] ['🇦', '🇧'] ∧
      (line.insertText ['e', '\u0301', '+']).chars = ['a', 'e', '\u0301', '+', '🇦', '🇧'] := by
  intro line
  have hbefore : line.before = ['a'] := by decide +kernel
  have hafter : line.after = ['🇦', '🇧'] := by decide +kernel
  have hletter : Parted ['a', 'e'] ['🇦', '🇧'] := ⟨2, by decide +kernel⟩
  have haccent : Parted ['a', 'e', '\u0301'] ['🇦', '🇧'] := ⟨2, by decide +kernel⟩
  obtain ⟨-, -, -, htogether⟩ := insertText_together line ['e', '\u0301', '+']
  rw [hbefore, hafter] at htogether
  refine ⟨hbefore, hafter, hletter, haccent, htogether ?_⟩
  intro front back htext hfront hback
  rcases front with _ | ⟨first, _ | ⟨second, more⟩⟩
  · exact absurd rfl hfront
  · cases htext
    exact hletter
  · simp only [List.cons_append, List.cons.injEq] at htext
    obtain ⟨rfl, rfl, hmore⟩ := htext
    obtain ⟨rfl, -⟩ := (List.append_eq_singleton_iff.mp hmore.symm).resolve_right (by simp [hback])
    exact haccent

/-- In front of an accent a letter takes it, and the next letter goes behind both. -/
theorem insertText_before_accent :
    let line := empty.editAll [.insert '\u0301', .home]
    line.before = [] ∧ line.after = ['\u0301'] ∧
      (line.insertText ['e', 'f']).chars = ['e', '\u0301', 'f'] ∧
      (line.insertText ['e', 'f']).chars ≠ line.before ++ ['e', 'f'] ++ line.after := by
  decide +kernel

end InputLine
end Reckoner
