import Mathlib.Data.List.Basic
import Reckoner.Unicode.Cluster

/-! # Clusters of a text and of its beginnings

Text is cut from left to right, so what comes later moves no boundary: the first
clusters of a text are the clusters of a text of their own, and a longer text has no
fewer clusters than its beginning. -/

namespace Reckoner.Unicode

variable {context : ClusterContext} {current text : List Char}

theorem clustersFrom_ne_nil (hc : current ≠ []) (context : ClusterContext) (text : List Char) :
    clustersFrom context current text ≠ [] := by
  intro hn
  have hf := flatten_clustersFrom context current text
  rw [hn] at hf
  simp [hc] at hf

/-- The last cluster of a text is still open: the text behind goes on with it. -/
theorem clustersFrom_append (context : ClusterContext) (current first second : List Char) :
    clustersFrom context current (first ++ second) =
      (clustersFrom context current first).dropLast ++
        clustersFrom (first.foldl ClusterContext.advance context)
          ((clustersFrom context current first).getLastD []).reverse second := by
  induction first generalizing context current with
  | nil =>
      cases current with
      | nil => rfl
      | cons c before => simp [clustersFrom]
  | cons c first ih =>
      simp only [List.cons_append, clustersFrom, List.foldl_cons]
      split
      · exact ih _ _
      · split
        · exact ih _ _
        · obtain ⟨cluster, others, ho⟩ := List.exists_cons_of_ne_nil
            (clustersFrom_ne_nil (List.cons_ne_nil c []) (context.advance c) first)
          rw [ih, ho]
          simp

theorem clusters_append (first second : List Char) :
    clusters (first ++ second) = (clusters first).dropLast ++
      clustersFrom (first.foldl ClusterContext.advance .start)
        ((clusters first).getLastD []).reverse second :=
  clustersFrom_append .start [] first second

/-- More text makes no fewer clusters. -/
theorem length_clusters_le_append (first second : List Char) :
    (clusters first).length ≤ (clusters (first ++ second)).length := by
  rw [clusters_append, List.length_append, List.length_dropLast]
  rcases List.eq_nil_or_concat (clusters first) with hn | ⟨others, last, hl⟩
  · rw [hn]
    exact Nat.zero_le _
  · -- The last cluster of the first text is begun, so it is counted behind the others.
    have hm : last ∈ clusters first := by simp [hl]
    have hlast : last ≠ [] := ne_nil_of_mem_clusters hm
    have hrest := List.length_pos_iff.mpr (clustersFrom_ne_nil
      (mt List.reverse_eq_nil_iff.mp hlast) (first.foldl ClusterContext.advance .start) second)
    have hopen : (clusters first).getLastD [] = last := by
      rw [hl, List.concat_eq_append, List.getLastD_concat]
    have hpos : 0 < (clusters first).length := by simp [hl]
    rw [hopen]
    omega

/-- The first clusters of a text are those of a beginning of it. The cluster that
has been begun is one of them. -/
theorem exists_clustersFrom_eq_take (context : ClusterContext) (current text : List Char)
    (count : Nat) (hc : current = [] ∨ count ≠ 0) :
    ∃ front, clustersFrom context current front = (clustersFrom context current text).take count := by
  induction text generalizing context current count with
  | nil =>
      refine ⟨[], ?_⟩
      cases current with
      | nil => simp [clustersFrom]
      | cons c before =>
          obtain ⟨count, rfl⟩ := Nat.exists_eq_succ_of_ne_zero (hc.resolve_left (List.cons_ne_nil _ _))
          simp [clustersFrom]
  | cons c rest ih =>
      cases count with
      | zero =>
          obtain rfl := hc.resolve_right (not_not.mpr rfl)
          exact ⟨[], by simp [clustersFrom]⟩
      | succ count =>
          by_cases hcontinues : context.continues c
          · obtain ⟨front, hf⟩ := ih (context.advance c) (c :: current) _ (.inr (Nat.succ_ne_zero count))
            exact ⟨c :: front, by simpa [clustersFrom, hcontinues] using hf⟩
          · cases current with
            | nil =>
                obtain ⟨front, hf⟩ := ih (context.advance c) [c] _ (.inr (Nat.succ_ne_zero count))
                exact ⟨c :: front, by simpa [clustersFrom, hcontinues] using hf⟩
            | cons d before =>
                -- The cluster that has been begun ends here; the others are those of the rest.
                cases count with
                | zero => exact ⟨[], by simp [clustersFrom, hcontinues]⟩
                | succ count =>
                    obtain ⟨front, hf⟩ :=
                      ih (context.advance c) [c] _ (.inr (Nat.succ_ne_zero count))
                    exact ⟨c :: front, by simpa [clustersFrom, hcontinues] using hf⟩

/-- The first clusters of a text are the clusters of what they hold. -/
theorem clusters_flatten_take (text : List Char) (count : Nat) :
    clusters ((clusters text).take count).flatten = (clusters text).take count := by
  obtain ⟨front, hf⟩ := exists_clustersFrom_eq_take .start [] text count (.inl rfl)
  have htake : clusters front = (clusters text).take count := hf
  rw [← htake, flatten_clusters]

end Reckoner.Unicode
