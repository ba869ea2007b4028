import Reckoner.Calculator
import Reckoner.Proofs.Evaluation.Line
import Reckoner.Proofs.Evaluation.NameOrder
import Reckoner.Proofs.Table

/-! # What an evaluation does to the variables

An evaluation adds the unbound names that it has read, in the order of the
line, and nothing else before it has succeeded: then the value of an assignment
is given to its target. Where unbound names are refused nothing is added, so a
line that fails leaves everything as it was. -/

namespace Reckoner

variable {policy : NamePolicy} {tokens : List Token} {vars : Variables} {trace : Trace}

theorem Variables.fresh_eq_nil {names : List String} (hb : ∀ name ∈ names, name ∈ vars.names) :
    vars.fresh names = [] := by
  have hf : names.filter (· ∉ vars.names) = [] := by
    rw [List.filter_eq_nil_iff]
    intro name hm
    simpa using hb name hm
  rw [Variables.fresh, hf, List.eraseDups_nil]

/-- Where unbound names are refused, those that could be read are not fresh. -/
theorem fresh_of_allReadable (hr : Run.AllReadable .refuse vars tokens) :
    vars.fresh (names tokens) = [] :=
  Variables.fresh_eq_nil fun name hm => Variables.isSome_value?_iff.mp (hr name hm rfl)

/-- A failed evaluation has read the names of some first tokens and declared them. -/
theorem exists_prefix_of_evaluate_error {fault : EvalError}
    (h : (evaluate policy tokens vars trace).result = .error fault) :
    ∃ front, front <+: scanned tokens ∧ Run.AllReadable policy vars front ∧
      (evaluate policy tokens vars trace).vars = vars.extend (vars.fresh (names front)) := by
  have hnone : ∃ front, front <+: scanned tokens ∧ Run.AllReadable policy vars front ∧
      vars = vars.extend (vars.fresh (names front)) :=
    ⟨[], List.nil_prefix, Run.allReadable_of_names_eq_nil rfl, (Variables.extend_nil vars).symm⟩
  rcases line_cases tokens with ⟨fault', _, he⟩ | ⟨target, hne, hs⟩
  · rwa [he]
  · rw [evaluate_of_scanned policy vars trace hne hs] at h ⊢
    obtain ⟨final, hx⟩ := conclude_eq_error_iff.mp h
    obtain ⟨front, hp, he, _⟩ := (Run.reads_expression (scanned tokens)).error hx
    rw [hx]
    exact ⟨front, hp, he.readable, he.vars_eq_extend⟩

/-- What the value of a line does to the table that its reading has left. -/
def Concluded (evaluation : Evaluation) (before after : Variables) : Prop :=
  match evaluation.assigned with
  | none => after = before
  | some name => Variables.Written name evaluation.value before after

theorem Concluded.nodup_names {evaluation : Evaluation} {before after : Variables}
    (h : Concluded evaluation before after) (hn : before.names.Nodup) : after.names.Nodup := by
  obtain ⟨value, assigned⟩ := evaluation
  cases assigned with
  | none =>
      obtain rfl : after = before := h
      exact hn
  | some name => exact Variables.Written.nodup_names h hn

theorem nodup_names_extend_fresh (hn : vars.names.Nodup) (names : List String) :
    (vars.extend (vars.fresh names)).names.Nodup := by
  rw [← Variables.declareAll_eq_extend]
  exact Variables.nodup_names_declareAll hn names

/-- A successful evaluation has declared all names that it scanned, and then
given its value to its target. -/
theorem concluded_of_evaluate_ok (hn : vars.names.Nodup) {evaluation : Evaluation}
    (h : (evaluate policy tokens vars trace).result = .ok evaluation) :
    lineTokens evaluation.assigned (scanned tokens) = tokens ∧
      Run.AllReadable policy vars (scanned tokens) ∧
      Concluded evaluation (vars.extend (vars.fresh (names (scanned tokens))))
        (evaluate policy tokens vars trace).vars := by
  obtain ⟨-, hs, final, hx, hl⟩ := scanned_of_evaluate_ok h
  obtain ⟨piece, hp, he⟩ := (Run.reads_expression (scanned tokens)).ok hx
  obtain rfl : scanned tokens = piece := by rw [hp, List.append_nil]
  have hv := he.vars_eq_extend
  refine ⟨hs, he.readable, ?_⟩
  rw [hl]
  obtain ⟨value, assigned⟩ := evaluation
  cases assigned with
  | none => exact hv
  | some name =>
      rw [← hv]
      refine Variables.written_assign ?_ name value
      rw [hv]
      exact nodup_names_extend_fresh hn _

/-- Where unbound names are refused, a failed evaluation changes nothing. -/
theorem evaluate_refuse_error {fault : EvalError}
    (h : (evaluate .refuse tokens vars trace).result = .error fault) :
    (evaluate .refuse tokens vars trace).vars = vars := by
  obtain ⟨front, _, hr, hv⟩ := exists_prefix_of_evaluate_error h
  rw [hv, fresh_of_allReadable hr, Variables.extend_nil]

/-- Nor does a line that fails, whether it has tokens or not. -/
theorem Calculator.answerTracing_refuse_error {line : String} {cause : LineError}
    (h : ((Calculator.mk .refuse vars).answerTracing line trace).result = .error cause) :
    ((Calculator.mk .refuse vars).answerTracing line trace).calculator = ⟨.refuse, vars⟩ := by
  unfold answerTracing at h ⊢
  cases ht : tokenize line with
  | error fault => rfl
  | ok tokens =>
      simp only [ht] at h ⊢
      cases hx : (evaluate .refuse tokens vars trace).result with
      | ok evaluation =>
          rw [hx] at h
          cases h
      | error fault => rw [evaluate_refuse_error hx]

/-- An evaluation keeps the names of the table distinct. -/
theorem nodup_names_evaluate (hn : vars.names.Nodup) :
    (evaluate policy tokens vars trace).vars.names.Nodup := by
  cases h : (evaluate policy tokens vars trace).result with
  | error fault =>
      obtain ⟨front, _, _, hv⟩ := exists_prefix_of_evaluate_error h
      rw [hv]
      exact nodup_names_extend_fresh hn _
  | ok evaluation =>
      obtain ⟨_, _, hc⟩ := concluded_of_evaluate_ok hn h
      exact hc.nodup_names (nodup_names_extend_fresh hn _)

/-- What an evaluation may do to the variables. If it fails it has added the
unbound names of some first tokens. If it succeeds it has added those of all
tokens, and then at most the target of the assignment has changed. Where unbound
names are refused, no line adds a name that it reads, and a line that fails
changes nothing. -/
theorem evaluate_vars (policy : NamePolicy) (tokens : List Token) (vars : Variables)
    (trace : Trace) (hn : vars.names.Nodup) :
    (∀ fault, (evaluate policy tokens vars trace).result = .error fault →
      ∃ front, front <+: scanned tokens ∧
        (evaluate policy tokens vars trace).vars = vars.extend (vars.fresh (names front))) ∧
    (∀ evaluation, (evaluate policy tokens vars trace).result = .ok evaluation →
      lineTokens evaluation.assigned (scanned tokens) = tokens ∧
        Concluded evaluation (vars.extend (vars.fresh (names (scanned tokens))))
          (evaluate policy tokens vars trace).vars) ∧
    (policy = .refuse →
      (∀ fault, (evaluate policy tokens vars trace).result = .error fault →
        (evaluate policy tokens vars trace).vars = vars) ∧
      (∀ evaluation, (evaluate policy tokens vars trace).result = .ok evaluation →
        vars.fresh (names (scanned tokens)) = []) ∧
      ∀ line cause, ((Calculator.mk policy vars).answerTracing line trace).result = .error cause →
        ((Calculator.mk policy vars).answerTracing line trace).calculator = ⟨policy, vars⟩) ∧
    (evaluate policy tokens vars trace).vars.names.Nodup := by
  refine ⟨?_, ?_, ?_, nodup_names_evaluate hn⟩
  · intro fault h
    obtain ⟨front, hp, _, hv⟩ := exists_prefix_of_evaluate_error h
    exact ⟨front, hp, hv⟩
  · intro evaluation h
    obtain ⟨hl, _, hc⟩ := concluded_of_evaluate_ok hn h
    exact ⟨hl, hc⟩
  · rintro rfl
    refine ⟨fun _ => evaluate_refuse_error, ?_, fun _ _ => Calculator.answerTracing_refuse_error⟩
    intro evaluation h
    obtain ⟨_, hr, _⟩ := concluded_of_evaluate_ok hn h
    exact fresh_of_allReadable hr

/-- `x = y + x *` fails behind its names: `y` and `x` are bound to zero, in this
order, and the target is not written. -/
theorem evaluate_vars_half_read :
    Variables.initial.names.Nodup ∧
    ∃ front, front <+: [.identifier "y", .operator .add, .identifier "x", .operator .mul] ∧
      (evaluate .declare [.identifier "x", .assign, .identifier "y", .operator .add,
        .identifier "x", .operator .mul] .initial (.start false)).vars =
          Variables.initial.extend (Variables.initial.fresh (names front)) := by
  have hn : Variables.initial.names.Nodup := by decide
  refine ⟨hn, ?_⟩
  exact (evaluate_vars .declare [.identifier "x", .assign, .identifier "y", .operator .add,
    .identifier "x", .operator .mul] .initial (.start false) hn).1 (.operandExpected 6)
    (by decide +kernel)

end Reckoner
