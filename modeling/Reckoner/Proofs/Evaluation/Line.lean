import Reckoner.Proofs.Evaluation.Reading

/-! # Lines

A line is an expression, or a name, an assignment sign and an expression. Its
evaluation scans the tokens of the expression and concludes with the
assignment. -/

namespace Reckoner

/-- The tokens that are scanned: those behind the sign of an assignment, or all. -/
def scanned : List Token → List Token
  | _ :: .assign :: next :: rest => next :: rest
  | tokens => tokens

/-- The line that gives the value of some tokens to a name, or only asks for it. -/
def lineTokens : Option String → List Token → List Token
  | none, tokens => tokens
  | some name, tokens => .identifier name :: .assign :: tokens

/-- The position of the first token that is scanned. -/
def offset : Option String → Nat
  | none => 0
  | some _ => 2

/-- A line whose scanned tokens are of some kind. -/
def LineOf (kind : List Token → Prop) (tokens : List Token) : Prop :=
  ∃ target body, kind body ∧ lineTokens target body = tokens

/-- What the value of the scanned tokens makes of a line. -/
def conclude (target : Option String) : EStateM.Result EvalError Machine Float → Outcome
  | .ok value machine =>
      match target with
      | none => ⟨.ok ⟨value, none⟩, machine.vars, machine.trace⟩
      | some name => ⟨.ok ⟨value, some name⟩, machine.vars.assign name value,
          machine.trace.add (name ++ " = " ++ Binary64.text value) value⟩
  | .error fault machine => ⟨.error fault, machine.vars, machine.trace⟩

variable {policy : NamePolicy} {target : Option String} {tokens : List Token}
variable {vars : Variables} {trace : Trace}

@[simp] theorem scanned_lineTokens_some (name : String) (hne : tokens ≠ []) :
    scanned (lineTokens (some name) tokens) = tokens := by
  obtain ⟨token, tokens, rfl⟩ := List.exists_cons_of_ne_nil hne
  rfl

theorem scanned_of_not_mem (ha : .assign ∉ tokens) : scanned tokens = tokens := by
  unfold scanned
  split
  · simp at ha
  · rfl

theorem scanned_lineTokens (hne : tokens ≠ []) (ha : .assign ∉ tokens) :
    scanned (lineTokens target tokens) = tokens := by
  cases target with
  | none => exact scanned_of_not_mem ha
  | some name => exact scanned_lineTokens_some name hne

variable (policy vars trace) in
/-- The evaluation of a line is that of its scanned tokens, concluded. -/
theorem evaluate_lineTokens (hne : tokens ≠ []) (hs : scanned (lineTokens target tokens) = tokens) :
    evaluate policy (lineTokens target tokens) vars trace =
      conclude target ((Run.expression policy (offset target) tokens).run
        ⟨.empty, .empty, vars, trace⟩) := by
  obtain ⟨token, tail, rfl⟩ := List.exists_cons_of_ne_nil hne
  cases target with
  | some name =>
      simp only [evaluate, lineTokens, Run.line, offset]
      cases he : (Run.expression policy 2 (token :: tail)).run ⟨.empty, .empty, vars, trace⟩ with
      | ok value machine => rw [Run.bind_of_ok he]; rfl
      | error fault machine => rw [Run.bind_of_error he]; rfl
  | none =>
      have hl : Run.line policy (token :: tail) =
          (do return ⟨← Run.expression policy 0 (token :: tail), none⟩) := by
        rw [Run.line.eq_def]
        split
        · contradiction
        · rename_i first next rest he
          rw [lineTokens, he] at hs
          exact absurd (congrArg List.length hs) (by simp [scanned])
        · rfl
      simp only [evaluate, lineTokens, offset, hl]
      cases he : (Run.expression policy 0 (token :: tail)).run ⟨.empty, .empty, vars, trace⟩ with
      | ok value machine => rw [Run.bind_of_ok he]; rfl
      | error fault machine => rw [Run.bind_of_error he]; rfl

/-- A line is empty, or its target is no name, or it is a line of its scanned tokens. -/
theorem line_forms (tokens : List Token) :
    tokens = [] ∨
      (∃ first next rest, tokens = first :: .assign :: next :: rest ∧
        ∀ name, first ≠ .identifier name) ∨
      ∃ target, scanned tokens ≠ [] ∧ lineTokens target (scanned tokens) = tokens := by
  by_cases hs : scanned tokens = tokens
  · cases tokens with
    | nil => exact .inl rfl
    | cons token tokens => exact .inr (.inr ⟨none, by rw [hs]; nofun, hs⟩)
  · obtain ⟨first, next, rest, rfl⟩ :
        ∃ first next rest, tokens = first :: .assign :: next :: rest := by
      unfold scanned at hs
      split at hs
      · exact ⟨_, _, _, rfl⟩
      · exact absurd rfl hs
    cases first with
    | identifier name => exact .inr (.inr ⟨some name, nofun, rfl⟩)
    | _ => exact .inr (.inl ⟨_, next, rest, rfl, nofun⟩)

variable (policy vars trace) in
theorem evaluate_badTarget {first : Token} (hf : ∀ name, first ≠ .identifier name) (next : Token)
    (rest : List Token) :
    evaluate policy (first :: .assign :: next :: rest) vars trace =
      ⟨.error .badTarget, vars, trace⟩ := by
  cases first with
  | identifier name => exact absurd rfl (hf name)
  | _ => rfl

/-- A line that is not scanned fails at once. -/
theorem line_cases (tokens : List Token) :
    (∃ fault, (fault = .empty ∨ fault = .badTarget) ∧ ∀ policy vars trace,
      evaluate policy tokens vars trace = ⟨.error fault, vars, trace⟩) ∨
    ∃ target, scanned tokens ≠ [] ∧ lineTokens target (scanned tokens) = tokens := by
  rcases line_forms tokens with rfl | ⟨first, next, rest, rfl, hf⟩ | hs
  · exact .inl ⟨.empty, .inl rfl, fun _ _ _ => rfl⟩
  · exact .inl ⟨.badTarget, .inr rfl,
      fun policy vars trace => evaluate_badTarget policy vars trace hf next rest⟩
  · exact .inr hs

theorem conclude_eq_ok_iff {run : EStateM.Result EvalError Machine Float}
    {evaluation : Evaluation} :
    (conclude target run).result = .ok evaluation ↔
      ∃ final, run = .ok evaluation.value final ∧ evaluation.assigned = target := by
  cases run with
  | error fault final => simp [conclude]
  | ok value final =>
      obtain ⟨value', assigned⟩ := evaluation
      cases target <;> simp [conclude, eq_comm]

theorem conclude_eq_error_iff {run : EStateM.Result EvalError Machine Float} {fault : EvalError} :
    (conclude target run).result = .error fault ↔ ∃ final, run = .error fault final := by
  cases run with
  | error fault' final => simp [conclude]
  | ok value final => cases target <;> simp [conclude]

variable (policy vars trace) in
/-- The evaluation of a line that is scanned is that of its scanned tokens, concluded. -/
theorem evaluate_of_scanned (hne : scanned tokens ≠ [])
    (ht : lineTokens target (scanned tokens) = tokens) :
    evaluate policy tokens vars trace =
      conclude target ((Run.expression policy (offset target) (scanned tokens)).run
        ⟨.empty, .empty, vars, trace⟩) := by
  have hl := evaluate_lineTokens policy vars trace hne (congrArg scanned ht)
  rwa [ht] at hl

/-- A line with a value has scanned tokens with this value, behind its target. -/
theorem scanned_of_evaluate_ok {evaluation : Evaluation}
    (h : (evaluate policy tokens vars trace).result = .ok evaluation) :
    scanned tokens ≠ [] ∧ lineTokens evaluation.assigned (scanned tokens) = tokens ∧
      ∃ final, (Run.expression policy (offset evaluation.assigned) (scanned tokens)).run
          ⟨.empty, .empty, vars, trace⟩ = .ok evaluation.value final ∧
        evaluate policy tokens vars trace =
          conclude evaluation.assigned (.ok evaluation.value final) := by
  rcases line_cases tokens with ⟨fault, _, he⟩ | ⟨target, hne, hs⟩
  · rw [he] at h
    cases h
  · have hl := evaluate_of_scanned policy vars trace hne hs
    rw [hl] at h
    obtain ⟨final, he, rfl⟩ := conclude_eq_ok_iff.mp h
    exact ⟨hne, hs, final, he, hl.trans (congrArg (conclude _) he)⟩

/-- A line has a value when its scanned tokens have. -/
theorem expression_of_evaluate_ok {evaluation : Evaluation}
    (h : (evaluate policy tokens vars trace).result = .ok evaluation) :
    ∃ target final, scanned tokens ≠ [] ∧ lineTokens target (scanned tokens) = tokens ∧
      (Run.expression policy (offset target) (scanned tokens)).run ⟨.empty, .empty, vars, trace⟩ =
        .ok evaluation.value final := by
  obtain ⟨hne, hs, final, he, -⟩ := scanned_of_evaluate_ok h
  exact ⟨evaluation.assigned, final, hne, hs, he⟩

/-- A line gives its value to a name just when it has the form of an assignment. -/
theorem assigned_eq_some_iff {evaluation : Evaluation}
    (h : (evaluate policy tokens vars trace).result = .ok evaluation) {name : String} :
    evaluation.assigned = some name ↔
      ∃ next rest, tokens = .identifier name :: .assign :: next :: rest := by
  obtain ⟨hne, hs, -⟩ := scanned_of_evaluate_ok h
  constructor
  · intro hname
    obtain ⟨next, rest, hscanned⟩ := List.exists_cons_of_ne_nil hne
    rw [hname, hscanned] at hs
    exact ⟨next, rest, hs.symm⟩
  · rintro ⟨next, rest, rfl⟩
    change lineTokens evaluation.assigned (next :: rest) = _ at hs
    cases ha : evaluation.assigned with
    | none =>
        rw [ha] at hs
        exact absurd (congrArg List.length hs) (by simp [lineTokens])
    | some other =>
        rw [ha] at hs
        cases hs
        rfl

/-- A line fails before it is scanned, or as its scanned tokens do. -/
theorem expression_of_evaluate_error {fault : EvalError}
    (h : (evaluate policy tokens vars trace).result = .error fault) :
    fault = .empty ∨ fault = .badTarget ∨ ∃ target final,
      (Run.expression policy (offset target) (scanned tokens)).run ⟨.empty, .empty, vars, trace⟩ =
        .error fault final := by
  rcases line_cases tokens with ⟨fault', hf, he⟩ | ⟨target, hne, hs⟩
  · rw [he] at h
    cases h
    exact hf.imp_right .inl
  · rw [evaluate_of_scanned policy vars trace hne hs, conclude_eq_error_iff] at h
    obtain ⟨final, he⟩ := h
    exact .inr (.inr ⟨target, final, he⟩)

namespace Run

/-- An expression has a value when its tokens can be read to the end, what is
then left can be summed, and no value remains. -/
theorem expression_eq_ok_iff {start : Nat} {machine final : Machine} {total : Float} :
    (expression policy start tokens).run machine = .ok total final ↔
      ∃ middle, Reading.Leads policy start ⟨[], tokens, machine⟩ ⟨tokens, [], middle⟩ ∧
        (takeSum .line).run middle = .ok total final ∧ final.values.items = [] := by
  constructor
  · intro h
    rw [expression, bind_eq_ok_iff] at h
    obtain ⟨_, middle, hr, h⟩ := h
    rw [bind_eq_ok_iff] at h
    obtain ⟨total', final', hs, h⟩ := h
    rw [bind_of_ok get_apply] at h
    cases he : final'.values.isEmpty with
    | true =>
        simp only [he, if_true, pure_apply] at h
        cases h
        exact ⟨middle, (Reading.readTokens_eq_ok_iff []).mp hr, hs, List.isEmpty_iff.mp he⟩
    | false =>
        simp only [he, Bool.false_eq_true, if_false, throw_apply] at h
        cases h
  · rintro ⟨middle, hl, hs, he⟩
    have hr := (Reading.readTokens_eq_ok_iff []).mpr hl
    have hv : final.values.isEmpty = true := List.isEmpty_iff.mpr he
    rw [List.length_nil, Nat.add_zero] at hr
    rw [expression, bind_of_ok hr, bind_of_ok hs, bind_of_ok get_apply]
    simp only [hv, if_true, pure_apply]

end Run
end Reckoner
