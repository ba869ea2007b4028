import Mathlib.Data.List.Basic
import Reckoner.Unicode.Cluster
import Reckoner.Unicode.Width

/-! # Text of one column for each cluster

Clusters and columns are two measures of a text. They agree on a text of narrow characters,
each of which is a cluster of its own and takes one column. -/

namespace Reckoner.Unicode

/-- Among characters of its kind this one is a cluster and takes a column. -/
def Narrow (c : Char) : Prop := clusterClass c = .other ∧ widthStep c .plain = (1, .plain)

instance : DecidablePred Narrow := fun _ => inferInstanceAs (Decidable (_ ∧ _))

theorem narrow_of_printable {c : Char} (hlow : 0x20 ≤ c.toNat) (hhigh : c.toNat < 0x7f) :
    Narrow c := by
  constructor
  · unfold clusterClass
    rw [if_neg (by omega), if_neg (by omega), if_pos (by simp [hlow, hhigh])]
  · have hfeed : c ≠ '\n' := by
      rintro rfl
      exact absurd hlow (by decide)
    have hreturn : c ≠ '\r' := by
      rintro rfl
      exact absurd hlow (by decide)
    have hcode : c.toNat ≤ 0xa0 := by omega
    simp [widthStep, RightContext.plain, hcode, hfeed, hreturn]

/-- So are many letters beyond those, but not the wide ones. -/
example : Narrow 'π' ∧ ¬ Narrow '世' := by decide +kernel

variable {text : List Char}

theorem flatten_singletons (text : List Char) : (text.map ([·])).flatten = text :=
  List.flatMap_singleton' text

theorem measure_of_narrow (h : ∀ c ∈ text, Narrow c) : measure text = ((text.length : Int), .plain) := by
  induction text with
  | nil => rfl
  | cons c rest ih =>
      obtain ⟨⟨-, hstep⟩, hrest⟩ := List.forall_mem_cons.mp h
      have hmeasure : measure (c :: rest) =
          ((measure rest).1 + (widthStep c (measure rest).2).1, (widthStep c (measure rest).2).2) :=
        rfl
      rw [hmeasure, ih hrest, hstep, List.length_cons, Int.natCast_succ]

theorem width_of_narrow (h : ∀ c ∈ text, Narrow c) : width text = text.length := by
  rw [width, measure_of_narrow h]
  rfl

theorem not_continues_of_narrow {context : ClusterContext} {c : Char}
    (hlast : context.last = none ∨ context.last = some .other) (hc : Narrow c) :
    context.continues c = false := by
  rcases hlast with hlast | hlast <;> simp [ClusterContext.continues, hlast, hc.1]

theorem clustersFrom_of_narrow {context : ClusterContext}
    (hlast : context.last = none ∨ context.last = some .other) (h : ∀ c ∈ text, Narrow c)
    (current : List Char) :
    clustersFrom context current text =
      (if current.isEmpty then [] else [current.reverse]) ++ text.map ([·]) := by
  induction text generalizing context current with
  | nil => simp [clustersFrom]
  | cons c rest ih =>
      obtain ⟨hc, hrest⟩ := List.forall_mem_cons.mp h
      have hnext : (context.advance c).last = some .other := congrArg some hc.1
      rw [clustersFrom, not_continues_of_narrow hlast hc, if_neg (by simp), ih (.inr hnext) hrest]
      cases current <;> rfl

theorem clusters_of_narrow (h : ∀ c ∈ text, Narrow c) : clusters text = text.map ([·]) :=
  clustersFrom_of_narrow (.inl rfl) h []

end Reckoner.Unicode
