import Reckoner.Proofs.Evaluation.Bindings

/-! # Lines that do not share names

A line depends on what its scanned names are bound to, and leaves all names alone
that it does not mention. So two assignments that do not mention each other's
target may change places. -/

namespace Reckoner

/-- The name stands in no assignment to another target whose right side is free of it. -/
theorem identifier_not_mem_lineTokens {name target : String} {body : List Token}
    (hne : name ≠ target) (hb : .identifier name ∉ body) :
    .identifier name ∉ lineTokens (some target) body := by
  simp [lineTokens, hne, hb]

/-- What an assignment gives its value to does not stand in another assignment, if
its target does not. -/
theorem LineWork.Assigns.not_mem {work : LineWork} {name x y : String} {body body' : List Token}
    (h : work.Assigns name)
    (ht : ∀ name value, work.result = .ok ⟨value, some name⟩ →
      lineTokens (some name) (scanned (lineTokens (some x) body)) = lineTokens (some x) body)
    (hne : x ≠ y) (hb : .identifier x ∉ body') :
    .identifier name ∉ lineTokens (some y) body' := by
  rw [h.eq_target ht]
  exact identifier_not_mem_lineTokens hne hb

/-- A line depends on, and touches, only the names that it mentions. On two tables
that bind its scanned names to the same values it has the same result and records
the same steps. A name that it does not mention keeps its binding. Two assignments
that do not mention each other's target have the same results, record the same
steps and leave the same bindings in either order. -/
theorem evaluate_local (policy : NamePolicy) :
    (∀ tokens vars vars' trace,
      (∀ name, .identifier name ∈ scanned tokens → vars.value? name = vars'.value? name) →
      let one := evaluate policy tokens vars trace
      let other := evaluate policy tokens vars' trace
      other.result = one.result ∧ other.trace = one.trace) ∧
    (∀ tokens vars trace name, .identifier name ∉ tokens →
      (evaluate policy tokens vars trace).vars.get? name = vars.get? name) ∧
    ∀ x y body body' vars trace trace', x ≠ y →
      .identifier x ∉ body' → .identifier y ∉ body →
      let first := evaluate policy (lineTokens (some x) body) vars trace
      let second := evaluate policy (lineTokens (some y) body') first.vars trace'
      let second' := evaluate policy (lineTokens (some y) body') vars trace'
      let first' := evaluate policy (lineTokens (some x) body) second'.vars trace
      first'.result = first.result ∧ first'.trace = first.trace ∧
        second'.result = second.result ∧ second'.trace = second.trace ∧
        ∀ name, first'.vars.get? name = second.vars.get? name := by
  refine ⟨?_, ?_, ?_⟩
  · intro tokens vars vars' trace hv one other
    obtain ⟨work, _, _, _, hwork⟩ := exists_lineWork policy tokens vars
    have hone : one = work.on vars trace := hwork vars trace (.refl _ _ _)
    have hother : other = work.on vars' trace := hwork vars' trace (.of_value?_eq policy hv)
    rw [hone, hother]
    exact ⟨rfl, rfl⟩
  · intro tokens vars trace name hm
    obtain ⟨work, hsub, _, htarget, hwork⟩ := exists_lineWork policy tokens vars
    rw [hwork vars trace (.refl _ _ _)]
    exact LineWork.get?_on_of_not_touches fun ht => hm (ht.mem hsub htarget)
  · intro x y body body' vars trace trace' hne hx hy first second second' first'
    obtain ⟨work, hsub, hread, htarget, hwork⟩ :=
      exists_lineWork policy (lineTokens (some x) body) vars
    obtain ⟨work', hsub', hread', htarget', hwork'⟩ :=
      exists_lineWork policy (lineTokens (some y) body') vars
    have hfree : ∀ name, work.Assigns name → .identifier name ∉ lineTokens (some y) body' :=
      fun _ ha => ha.not_mem htarget hne hx
    have hfree' : ∀ name, work'.Assigns name → .identifier name ∉ lineTokens (some x) body :=
      fun _ ha => ha.not_mem htarget' (Ne.symm hne) hy
    -- Each line finds its names as they were, whether the other line came before it or not.
    have hfirst : first = work.on vars trace := hwork vars trace (.refl _ _ _)
    have hsecond' : second' = work'.on vars trace' := hwork' vars trace' (.refl _ _ _)
    have hsecond : second = work'.on first.vars trace' := by
      refine hwork' first.vars trace' ?_
      rw [hfirst]
      exact LineWork.agree_on hread fun name ha => mt (@scanned_subset _ _) (hfree name ha)
    have hfirst' : first' = work.on second'.vars trace := by
      refine hwork second'.vars trace ?_
      rw [hsecond']
      exact LineWork.agree_on hread' fun name ha => mt (@scanned_subset _ _) (hfree' name ha)
    rw [hfirst', hsecond, hfirst, hsecond']
    refine ⟨rfl, rfl, rfl, rfl, ?_⟩
    intro name
    symm
    refine LineWork.get?_on_comm ?_ ?_ name
    · exact fun name ha ht => hfree name ha (ht.mem hsub' htarget')
    · exact fun name ha ht => hfree' name ha (ht.mem hsub htarget)

/-- `x = z + 1` and `y = z * 2` share only `z`, which the first of them declares:
in either order it is bound to zero, `x` to one and `y` to zero. That `z` is a
constant in another table does not change what `z + 1` is. -/
theorem evaluate_local_shared_name :
    let sum : List Token := [.identifier "z", .operator .add, .number 1]
    let product : List Token := [.identifier "z", .operator .mul, .number 2]
    let zero : Variables := Variables.initial.declare "z"
    let fixed : Variables := ⟨[⟨"z", 0, true⟩]⟩
    let sumFirst := (evaluate .declare (lineTokens (some "y") product)
      (evaluate .declare (lineTokens (some "x") sum) .initial (.start true)).vars
      (.start true)).vars
    let productFirst := (evaluate .declare (lineTokens (some "x") sum)
      (evaluate .declare (lineTokens (some "y") product) .initial (.start true)).vars
      (.start true)).vars
    ((∀ name, .identifier name ∈ scanned sum → zero.value? name = fixed.value? name) ∧
      (evaluate .declare sum fixed (.start true)).result = .ok ⟨1, none⟩) ∧
    (.identifier "pi" ∉ lineTokens (some "x") sum ∧
      (evaluate .declare (lineTokens (some "x") sum) .initial (.start true)).vars.get? "pi" =
        some ⟨"pi", Variables.pi, true⟩) ∧
    ("x" ≠ "y" ∧ .identifier "x" ∉ product ∧ .identifier "y" ∉ sum) ∧
    sumFirst.names = ["pi", "e", "z", "x", "y"] ∧
    productFirst.names = ["pi", "e", "z", "y", "x"] ∧
    (∀ name, productFirst.get? name = sumFirst.get? name) ∧
    productFirst.get? "x" = some ⟨"x", 1, false⟩ := by
  intro sum product zero fixed sumFirst productFirst
  obtain ⟨hdepends, hkeeps, hcommutes⟩ := evaluate_local .declare
  have hz : ∀ name, .identifier name ∈ scanned sum → zero.value? name = fixed.value? name := by
    intro name hm
    have hn : name ∈ names (scanned sum) := mem_names_iff.mpr hm
    obtain rfl : name = "z" := List.mem_singleton.mp hn
    decide +kernel
  have hpi : .identifier "pi" ∉ lineTokens (some "x") sum := by decide
  have hx : .identifier "x" ∉ product := by decide
  have hy : .identifier "y" ∉ sum := by decide
  refine ⟨⟨hz, ?_⟩, ⟨hpi, ?_⟩, ⟨by decide, hx, hy⟩, by decide +kernel, by decide +kernel, ?_,
    by decide +kernel⟩
  · exact (hdepends sum zero fixed (.start true) hz).1.trans (by decide +kernel)
  · exact (hkeeps _ _ (.start true) _ hpi).trans (by decide +kernel)
  · obtain ⟨-, -, -, -, h⟩ :=
      hcommutes "x" "y" sum product .initial (.start true) (.start true) (by decide) hx hy
    exact h

end Reckoner
