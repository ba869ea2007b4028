import Reckoner.Proofs.Evaluation.Line
import Reckoner.Proofs.Evaluation.Simulation

/-! # When an expression has a value

The steps of a whole expression, and the sum that concludes them. An expression
has a value exactly when its names may be read and steps of shapes lead to one
value more than there are sums that wait. -/

namespace Reckoner

variable {policy : NamePolicy} {read : String → Float} {piece rest : List Token}
variable {before after : Shape}

variable (policy read) in
theorem Shape.Steps.exists_values (h : Shape.Steps piece rest before after)
    (hw : Powerless before.waiting) (values : List Float) (hl : values.length = before.values) :
    ∃ values' : List Float, values'.length = after.values ∧
      Turns policy read piece rest ⟨values, before.waiting⟩ ⟨values', after.waiting⟩ := by
  induction h generalizing values with
  | nil => exact ⟨values, hl, Turns.nil⟩
  | cons hf _ ih =>
      obtain ⟨middle, hm, hf'⟩ := hf.exists_values hw values hl
      obtain ⟨values', hl', hs'⟩ := ih (hf.powerless hw) middle hm
      exact ⟨values', hl', hf'.append hs'⟩

/-- What a step of a reading has read, as long as no power waits. -/
theorem Reading.Next.exists_stepOf {start : Nat} {first second : Reading}
    (h : Next policy start first second) (hw : Powerless first.machine.waiting.items) :
    ∃ piece, second.done = first.done ++ piece ∧
      StepOf policy first.rest piece second.rest first.machine second.machine := by
  obtain ⟨hs, hp⟩ := h
  obtain ⟨piece, hstep⟩ := Run.step_eq_ok hw hs
  refine ⟨piece, ?_, hstep⟩
  rw [List.append_cancel_right (hp.symm.trans hstep.tokens_eq)]

/-- What leads from one reading to another are steps of shapes. -/
theorem Reading.Leads.exists_steps {start : Nat} {first second : Reading}
    (h : Leads policy start first second) (hw : Powerless first.machine.waiting.items) :
    ∃ piece, second.done = first.done ++ piece ∧
      Shape.Steps piece second.rest first.machine.shape second.machine.shape ∧
      Run.AllReadable policy first.machine.vars piece ∧
      second.machine.vars = first.machine.vars.declareAll (names piece) := by
  induction h with
  | refl => exact ⟨[], (List.append_nil _).symm, .nil, Run.allReadable_of_names_eq_nil rfl, rfl⟩
  | @tail middle last _ hn ih =>
      obtain ⟨front, hd, hs, hr, hv⟩ := ih
      obtain ⟨piece, hd', hs'⟩ := hn.exists_stepOf (hs.powerless hw)
      refine ⟨front ++ piece, by rw [hd', hd, List.append_assoc], ?_, ?_, ?_⟩
      · rw [hs'.tokens_eq] at hs
        exact hs.append hs'.shape.single
      · have hreadable := hs'.readable
        rw [hv] at hreadable
        exact Run.allReadable_append.mpr ⟨hr, hr.of_declareAll hreadable⟩
      · rw [hs'.vars_eq, hv, names_append, Variables.declareAll_append]

/-- Sums are gathered down to what lies under them. -/
theorem exists_gather_sums (stop : SumEnd) {signs : List SumOperator} {values : List Float}
    (hl : signs.length < values.length) (inner : List Waiting) :
    ∃ (terms : Terms) (first : Float) (left : List Float),
      values = terms.values ++ first :: left ∧ waitingSums signs = terms.waiting ∧
        gather stop [] values (waitingSums signs ++ inner) =
          gather stop terms.signed (first :: left) inner := by
  obtain ⟨terms, below, rfl, rfl⟩ := Terms.exists_of_length_le signs values (Nat.le_of_lt hl)
  obtain ⟨first, left, rfl⟩ : ∃ first left, below = first :: left := by
    apply List.exists_cons_of_length_pos
    simp only [Terms.length_signs, List.length_append, Terms.length_values] at hl
    omega
  refine ⟨terms, first, left, rfl, terms.waiting_eq_waitingSums.symm, ?_⟩
  rw [← terms.waiting_eq_waitingSums, gather_terms, List.append_nil]

namespace Run

variable {tokens : List Token} {machine final : Machine}

/-- The sum of a line takes all that is on the stacks when no value is left. -/
theorem terms_of_takeSum_line {total : Float} (h : (takeSum .line).run machine = .ok total final)
    (he : final.values.items = []) :
    ∃ (terms : Terms) (first : Float), machine.values.items = terms.values ++ [first] ∧
      machine.waiting.items = terms.waiting ∧ total = (Sum.mk first terms.signed).total ∧
      final.trace = machine.trace.extend ((Sum.mk first terms.signed).stepsIn .line) := by
  obtain ⟨⟨sum, left, _⟩, hg, rfl, rfl⟩ := gather_of_takeSum_ok h
  obtain rfl : left = [] := he
  obtain ⟨terms, first, below, hv, hw, ⟨rfl, -⟩, hsum⟩ := gather_eq_ok_iff.mp hg
  rw [List.append_nil] at hw hsum
  obtain rfl : sum = ⟨first, terms.signed⟩ := hsum
  exact ⟨terms, first, hv, hw, rfl, rfl⟩

/-- A line can be summed to one value when additions and subtractions are all that
waits, and there is one value more than of these. -/
theorem shape_of_takeSum_line {total : Float} (h : (takeSum .line).run machine = .ok total final)
    (he : final.values.items = []) :
    ∃ signs : List SumOperator, machine.shape = ⟨signs.length + 1, waitingSums signs⟩ := by
  obtain ⟨terms, first, hv, hw, -⟩ := terms_of_takeSum_line h he
  refine ⟨terms.signs, ?_⟩
  ext1
  · simp [Machine.shape, Stack.size, hv]
  · rw [Machine.shape, hw, terms.waiting_eq_waitingSums]

/-- Without a group, what is left behind a value can be summed to one value. -/
theorem takeSum_line_of_shape {signs : List SumOperator}
    (hs : machine.shape = ⟨signs.length + 1, waitingSums signs⟩) :
    ∃ total final, (takeSum .line).run machine = .ok total final ∧ final.values.items = [] := by
  obtain ⟨⟨values⟩, ⟨waiting⟩, vars, trace⟩ := machine
  obtain ⟨hl, hw⟩ : values.length = signs.length + 1 ∧ waiting = waitingSums signs := by
    simpa [Machine.shape, Stack.size] using hs
  obtain ⟨terms, first, left, rfl, ht, _⟩ :=
    exists_gather_sums .line (by rw [hl]; exact Nat.lt_succ_self _) []
  have hleft : left = [] := by
    apply List.eq_nil_of_length_eq_zero
    have hterms : terms.length = signs.length := by
      have hlength := congrArg List.length ht
      simpa [waitingSums] using hlength.symm
    simp only [List.length_append, Terms.length_values, List.length_cons] at hl
    omega
  obtain ⟨trace', hsum⟩ := takeSum_terms left vars trace terms first SumEnd.bounds_line
  rw [List.append_nil, ← ht, ← hw] at hsum
  exact ⟨_, _, hsum, hleft⟩

/-- An expression has a value exactly when its names may be read and steps of
shapes lead to what can be summed to one value. -/
theorem expression_ok_iff_steps {start : Nat} {tokens : List Token} {vars : Variables}
    {trace : Trace} :
    (∃ total final, (expression policy start tokens).run ⟨.empty, .empty, vars, trace⟩ =
        .ok total final) ↔
      AllReadable policy vars tokens ∧ ∃ signs : List SumOperator,
        Shape.Steps tokens [] ⟨0, []⟩ ⟨signs.length + 1, waitingSums signs⟩ := by
  constructor
  · rintro ⟨total, final, h⟩
    obtain ⟨middle, hl, hs, he⟩ := expression_eq_ok_iff.mp h
    obtain ⟨signs, hshape⟩ := shape_of_takeSum_line hs he
    obtain ⟨piece, hd, hsteps, hr, _⟩ := hl.exists_steps nofun
    obtain rfl : tokens = piece := hd
    rw [hshape] at hsteps
    exact ⟨hr, signs, hsteps⟩
  · rintro ⟨hr, signs, hsteps⟩
    obtain ⟨values, hl, ht⟩ := hsteps.exists_values policy vars.read nofun [] rfl
    obtain ⟨trace', hl'⟩ := ht start [] vars trace rfl hr
    rw [List.append_nil] at hl'
    have hshape : Machine.shape ⟨⟨values⟩, ⟨waitingSums signs⟩, vars.declareAll (names tokens),
        trace'⟩ = ⟨signs.length + 1, waitingSums signs⟩ := congrArg (Shape.mk · _) hl
    obtain ⟨total, final, hs, he⟩ := takeSum_line_of_shape hshape
    exact ⟨total, final, expression_eq_ok_iff.mpr ⟨_, hl', hs, he⟩⟩

end Run
end Reckoner
