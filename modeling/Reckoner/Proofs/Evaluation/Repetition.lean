import Reckoner.Proofs.Evaluation.Bindings

/-! # Evaluating a line again

A line that does not read its own target finds, when it is evaluated again, what
it found before: the names that it has declared read as zero, as they did when
they were not bound. So it has the same result and records the same steps. All
its names are bound by then and its target has its value, so the table stays as
it is. -/

namespace Reckoner

namespace Variables

variable {vars : Variables} {name : String}

/-- What the value of a line does is done once. -/
theorem receive_receive (vars : Variables) (result : Except EvalError Evaluation) :
    (vars.receive result).receive result = vars.receive result := by
  cases result with
  | error fault => rfl
  | ok evaluation =>
      obtain ⟨value, assigned⟩ := evaluation
      cases assigned with
      | none => rfl
      | some name => exact vars.assign_assign name value

theorem isSome_value?_receive (hb : (vars.value? name).isSome)
    (result : Except EvalError Evaluation) :
    ((vars.receive result).value? name).isSome := by
  cases result with
  | error fault => exact hb
  | ok evaluation =>
      obtain ⟨value, assigned⟩ := evaluation
      cases assigned with
      | none => exact hb
      | some target => exact isSome_value?_assign hb target value

end Variables

variable {policy : NamePolicy} {tokens : List Token} {vars vars' : Variables}

/-- A line that does not read its own target has the same result when it is
evaluated again, and records the same steps. The second evaluation leaves the
variables as the first one has left them, whether it succeeds or fails. -/
theorem evaluate_again (policy : NamePolicy) (tokens : List Token) (vars : Variables)
    (trace trace' : Trace)
    (ht : ∀ name body, tokens = .identifier name :: .assign :: body → .identifier name ∉ body) :
    let first := evaluate policy tokens vars trace
    let second := evaluate policy tokens first.vars trace'
    second.result = first.result ∧ second.vars = first.vars ∧
      ∃ steps, first.trace = trace.extend steps ∧ second.trace = trace'.extend steps := by
  intro first second
  obtain ⟨work, -, hread, htarget, hwork⟩ := exists_lineWork policy tokens vars
  have hfirst : first = work.on vars trace := hwork vars trace (.refl _ _ _)
  have hagree : Agree policy (scanned tokens) vars first.vars := by
    rw [hfirst]
    -- Only an assignment has changed a value, and its target is no scanned name.
    refine LineWork.agree_on hread ?_
    rintro name ⟨value, hr⟩
    exact ht name _ (htarget name value hr).symm
  have hsecond : second = work.on first.vars trace' := hwork first.vars trace' hagree
  have hbound : Run.AllReadable .refuse first.vars work.read := by
    intro name hm _
    rw [hfirst]
    exact Variables.isSome_value?_receive (Variables.isSome_value?_declareAll hm) _
  refine ⟨?_, ?_, work.steps, ?_, ?_⟩
  · rw [hsecond, hfirst]
    rfl
  · rw [hsecond, LineWork.on]
    simp only
    rw [hbound.declareAll_eq, hfirst]
    exact Variables.receive_receive _ _
  · rw [hfirst]
    rfl
  · rw [hsecond]
    rfl

/-- `x = y + 2` binds `y` and `x` the first time, and nothing the second time. -/
theorem evaluate_again_declaring :
    let tokens : List Token :=
      [.identifier "x", .assign, .identifier "y", .operator .add, .number 2]
    let first := evaluate .declare tokens .initial (.start false)
    let second := evaluate .declare tokens first.vars (.start true)
    (∀ name body, tokens = .identifier name :: .assign :: body → .identifier name ∉ body) ∧
      second.result = .ok ⟨2, some "x"⟩ ∧
      second.vars = ⟨Variables.initial.entries ++ [⟨"y", 0, false⟩, ⟨"x", 2, false⟩]⟩ := by
  intro tokens first second
  have ht : ∀ name body, tokens = .identifier name :: .assign :: body →
      .identifier name ∉ body := by
    intro name body he
    obtain ⟨hname, hbody⟩ := List.cons.inj he
    obtain rfl : "x" = name := Token.identifier.inj hname
    obtain rfl : [.identifier "y", .operator .add, .number 2] = body := (List.cons.inj hbody).2
    decide
  obtain ⟨hresult, hvars, -⟩ :=
    evaluate_again .declare tokens .initial (.start false) (.start true) ht
  refine ⟨ht, hresult.trans ?_, hvars.trans ?_⟩
  · decide +kernel
  · decide +kernel

end Reckoner
