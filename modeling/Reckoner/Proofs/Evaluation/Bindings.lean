import Reckoner.Proofs.Assignment
import Reckoner.Proofs.Evaluation.Dependence

/-! # What a line leaves of the bindings

A line declares the names that it reads and gives its value to its target. What
another name is bound to stays as it is. So the effects of two lines on a name can
be told apart unless one of them assigns it. -/

namespace Reckoner

variable {policy : NamePolicy} {tokens : List Token} {vars vars' : Variables} {name : String}

namespace Variables

variable {result : Except EvalError Evaluation}

/-- The value of a line goes to its target alone. -/
theorem get?_receive_of_ne (ht : ∀ value, result ≠ .ok ⟨value, some name⟩) :
    (vars.receive result).get? name = vars.get? name := by
  cases result with
  | error fault => rfl
  | ok evaluation =>
      obtain ⟨value, assigned⟩ := evaluation
      cases assigned with
      | none => rfl
      | some target =>
          rw [receive, get?_assign, if_neg]
          rintro rfl
          exact ht value rfl

/-- What the value of a line makes of a binding depends on this binding only. -/
theorem get?_receive_congr (h : vars.get? name = vars'.get? name)
    (result : Except EvalError Evaluation) :
    (vars.receive result).get? name = (vars'.receive result).get? name := by
  cases result with
  | error fault => exact h
  | ok evaluation =>
      obtain ⟨value, assigned⟩ := evaluation
      cases assigned with
      | none => exact h
      | some target =>
          rw [receive, receive, get?_assign, get?_assign]
          split
          · rename_i he
            rw [he, h]
          · exact h

end Variables

/-- The value of a line changes nothing that a line reads which does not read its target. -/
theorem Agree.receive {result : Except EvalError Evaluation} (h : Agree policy tokens vars vars')
    (ht : ∀ name value, result = .ok ⟨value, some name⟩ → .identifier name ∉ tokens) :
    Agree policy tokens vars (vars'.receive result) := by
  have hv : ∀ {name}, .identifier name ∈ tokens →
      (vars'.receive result).value? name = vars'.value? name := by
    intro name hm
    rw [Variables.value?, Variables.get?_receive_of_ne fun value he => ht name value he hm,
      Variables.value?]
  constructor
  · intro name hm
    rw [h.readable hm, Run.Readable, Run.Readable, hv hm]
  · intro name hm
    rw [h.read hm, Variables.read, Variables.read, hv hm]

/-- Tables that bind the names of some tokens to the same values agree on them. -/
theorem Agree.of_value?_eq (policy : NamePolicy)
    (h : ∀ name, .identifier name ∈ tokens → vars.value? name = vars'.value? name) :
    Agree policy tokens vars vars' where
  readable {name} hm := by rw [Run.Readable, Run.Readable, h name hm]
  read {name} hm := by rw [Variables.read, Variables.read, h name hm]

/-- All scanned tokens are tokens of the line. -/
theorem scanned_subset (tokens : List Token) : scanned tokens ⊆ tokens := by
  unfold scanned
  split
  · exact List.subset_cons_of_subset _ (List.subset_cons_self _ _)
  · exact List.Subset.refl _

namespace LineWork

variable {work first second : LineWork} {trace trace' : Trace}

/-- The line gives its value to the name. -/
def Assigns (work : LineWork) (name : String) : Prop :=
  ∃ value, work.result = .ok ⟨value, some name⟩

/-- The line declares the name or gives its value to it. -/
def Touches (work : LineWork) (name : String) : Prop :=
  name ∈ names work.read ∨ work.Assigns name

/-- A line finds its names as they were when a line before it has assigned none of them. -/
theorem agree_on (hread : Run.AllReadable policy vars work.read)
    (ht : ∀ name, work.Assigns name → .identifier name ∉ tokens) :
    Agree policy tokens vars (work.on vars trace).vars :=
  (Agree.of_declareAll hread).receive fun name value he => ht name ⟨value, he⟩

/-- A name that a line does not assign is declared at most. -/
theorem get?_on_of_not_assigns (ha : ¬ work.Assigns name) :
    (work.on vars trace).vars.get? name =
      (vars.get? name).or (if name ∈ names work.read then some ⟨name, 0, false⟩ else none) := by
  rw [on, Variables.get?_receive_of_ne fun value he => ha ⟨value, he⟩, Variables.get?_declareAll]

theorem get?_on_of_not_touches (ht : ¬ work.Touches name) :
    (work.on vars trace).vars.get? name = vars.get? name := by
  obtain ⟨hr, ha⟩ := not_or.mp ht
  rw [get?_on_of_not_assigns ha, if_neg hr, Option.or_none]

theorem get?_on_congr (h : vars.get? name = vars'.get? name) :
    (work.on vars trace).vars.get? name = (work.on vars' trace).vars.get? name := by
  refine Variables.get?_receive_congr ?_ work.result
  rw [Variables.get?_declareAll, Variables.get?_declareAll, h]

/-- Two lines that do not touch each other's targets leave the same bindings in
either order. A name that both declare is bound to zero by the first of them. -/
theorem get?_on_comm (hf : ∀ name, first.Assigns name → ¬ second.Touches name)
    (hs : ∀ name, second.Assigns name → ¬ first.Touches name) (name : String) :
    (second.on (first.on vars trace).vars trace').vars.get? name =
      (first.on (second.on vars trace').vars trace).vars.get? name := by
  by_cases hft : first.Touches name
  · by_cases hst : second.Touches name
    · have hfa : ¬ first.Assigns name := fun ha => hf name ha hst
      have hsa : ¬ second.Assigns name := fun ha => hs name ha hft
      have hfr := hft.resolve_right hfa
      have hsr := hst.resolve_right hsa
      rw [get?_on_of_not_assigns hsa, get?_on_of_not_assigns hfa, get?_on_of_not_assigns hfa,
        get?_on_of_not_assigns hsa, if_pos hfr, if_pos hsr]
    · rw [get?_on_of_not_touches hst]
      exact get?_on_congr (get?_on_of_not_touches hst).symm
  · rw [get?_on_of_not_touches hft]
    exact get?_on_congr (get?_on_of_not_touches hft)

/-- A name that a line declares or assigns stands in it. -/
theorem Touches.mem {name : String} (h : work.Touches name) (hsub : work.read ⊆ scanned tokens)
    (ht : ∀ name value, work.result = .ok ⟨value, some name⟩ →
      lineTokens (some name) (scanned tokens) = tokens) : .identifier name ∈ tokens := by
  rcases h with hr | ⟨value, ha⟩
  · exact scanned_subset tokens (hsub (mem_names_iff.mp hr))
  · rw [← ht name value ha]
    exact List.mem_cons_self

/-- An assignment gives its value to the name in front of the sign. -/
theorem Assigns.eq_target {name target : String} {body : List Token} (h : work.Assigns name)
    (ht : ∀ name value, work.result = .ok ⟨value, some name⟩ →
      lineTokens (some name) (scanned (lineTokens (some target) body)) =
        lineTokens (some target) body) : name = target := by
  obtain ⟨value, ha⟩ := h
  exact Token.identifier.inj (List.cons.inj (ht name value ha)).1

end LineWork
end Reckoner
