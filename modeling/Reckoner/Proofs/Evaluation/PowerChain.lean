import Reckoner.Proofs.Evaluation.Machine

/-! # Chains of powers on the stacks

A chain is read whole: its operands are pushed in order and its powers folded
from the right. A caret at the end of the line has no exponent of its own and
takes the last value that there is. -/

namespace Reckoner

theorem names_powerTokens (exponents : List Operand) :
    names (powerTokens exponents) = names (exponents.map Operand.token) := by
  induction exponents with
  | nil => rfl
  | cons exponent exponents ih =>
      have hc : names (exponent.token :: powerTokens exponents) =
          names [exponent.token] ++ names (powerTokens exponents) :=
        names_append [exponent.token] _
      calc
        names (powerTokens (exponent :: exponents)) =
            names (exponent.token :: powerTokens exponents) := rfl
        _ = names [exponent.token] ++ names (exponents.map Operand.token) := by rw [hc, ih]
        _ = names ((exponent :: exponents).map Operand.token) := (names_append _ _).symm

namespace PowerChain

/-- The chain of some exponents that ends in front of `rest`. -/
def complete (exponents : List Operand) (rest : List Token) : PowerChain :=
  ⟨exponents.map Operand.token, exponents.length - 1, false, rest⟩

/-- The chain of some exponents with a further caret at the end of the line. -/
def hanging (exponents : List Operand) : PowerChain :=
  ⟨exponents.map Operand.token, exponents.length, false, []⟩

theorem ofTokens_complete (exponent : Operand) (exponents : List Operand) {rest : List Token}
    (hn : NoPower rest) :
    ofTokens (exponent.token :: powerTokens exponents ++ rest) =
      complete (exponent :: exponents) rest := by
  induction exponents generalizing exponent with
  | nil =>
      cases rest with
      | nil => simp [ofTokens, complete]
      | cons token rest =>
          have ht : token ≠ .operator .pow := by simpa using hn
          simp [ofTokens, complete, ht]
  | cons next exponents ih =>
      rw [List.cons_append, powerTokens_cons, ofTokens.eq_def]
      simp only [Operand.isOperand_token, if_true, List.cons_append]
      rw [← List.cons_append, ih next]
      simp [complete]

theorem ofTokens_hanging (exponent : Operand) (exponents : List Operand) :
    ofTokens (exponent.token :: powerTokens exponents ++ [.operator .pow]) =
      hanging (exponent :: exponents) := by
  induction exponents generalizing exponent with
  | nil => simp [ofTokens, hanging]
  | cons next exponents ih =>
      rw [List.cons_append, powerTokens_cons, ofTokens.eq_def]
      simp only [Operand.isOperand_token, if_true, List.cons_append]
      rw [← List.cons_append, ih next]
      simp [hanging]

/-- The operands of a chain are tokens of the line. -/
theorem operands_subset (tokens : List Token) : (ofTokens tokens).operands ⊆ tokens := by
  fun_induction ofTokens tokens with
  | case1 => exact List.Subset.refl _
  | case2 token hop after chain =>
      rename_i ih
      have hafter : after ⊆ token :: .operator .pow :: after := by simp
      exact List.cons_subset.mpr ⟨List.mem_cons_self, List.Subset.trans ih hafter⟩
  | case3 token rest hop => simp
  | case4 => simp

/-- A chain without a missing exponent ends in front of another token or in a
caret at the end of the line. -/
theorem ofTokens_cases {tokens : List Token} (hm : (ofTokens tokens).missing = false) :
    (∃ exponent exponents rest, NoPower rest ∧
      tokens = exponent.token :: powerTokens exponents ++ rest ∧
      ofTokens tokens = complete (exponent :: exponents) rest) ∨
    ∃ exponents, .operator .pow :: tokens = powerTokens exponents ++ [.operator .pow] ∧
      ofTokens tokens = hanging exponents := by
  fun_induction ofTokens tokens with
  | case1 => exact .inr ⟨[], rfl, rfl⟩
  | case2 token hop after chain ih =>
      obtain ⟨operand, rfl⟩ := Operand.exists_of_isOperand hop
      obtain ⟨exponent, exponents, rest, hn, rfl, hc⟩ | ⟨exponents, ha, hc⟩ := ih hm
      · refine .inl ⟨operand, exponent :: exponents, rest, hn, rfl, ?_⟩
        simp [chain, hc, complete]
      · refine .inr ⟨operand :: exponents, ?_, ?_⟩
        · rw [ha]
          rfl
        · simp [chain, hc, hanging]
  | case3 token rest hop hne =>
      obtain ⟨operand, rfl⟩ := Operand.exists_of_isOperand hop
      refine .inl ⟨operand, [], rest, ?_, rfl, rfl⟩
      intro hh
      cases rest with
      | nil => cases hh
      | cons next rest =>
          cases hh
          exact hne rest rfl
  | case4 => cases hm

end PowerChain

/-- Folding values from the top down raises the lowest one to all above it. -/
theorem foldl_pow_eq_power (base top : Float) (exponents : List Float) :
    (exponents.reverse ++ [base]).foldl (fun exponent base => Operator.pow.apply base exponent)
      top = power base (exponents ++ [top]) := by
  induction exponents generalizing base with
  | nil => rfl
  | cons exponent exponents ih =>
      rw [List.reverse_cons, List.foldl_append, ih]
      rfl

/-- The steps that fold values from the top down. -/
def raisedSteps (top : Float) : List Float → List Step
  | [] => []
  | base :: below => Operator.pow.step base top :: raisedSteps (Operator.pow.apply base top) below

/-- The steps of a chain of exponents over a base, the innermost power first. -/
def powerSteps (base : Float) : List Float → List Step
  | [] => []
  | exponent :: exponents =>
      powerSteps exponent exponents ++ [Operator.pow.step base (power exponent exponents)]

theorem length_powerSteps (base : Float) (exponents : List Float) :
    (powerSteps base exponents).length = exponents.length := by
  induction exponents generalizing base with
  | nil => rfl
  | cons exponent exponents ih => rw [powerSteps, List.length_append, ih]; rfl

theorem raisedSteps_append (top : Float) (first second : List Float) :
    raisedSteps top (first ++ second) = raisedSteps top first ++
      raisedSteps (first.foldl (fun exponent base => Operator.pow.apply base exponent) top)
        second := by
  induction first generalizing top with
  | nil => rfl
  | cons base first ih => rw [List.cons_append, raisedSteps, ih]; rfl

theorem raisedSteps_eq_powerSteps (base top : Float) (exponents : List Float) :
    raisedSteps top (exponents.reverse ++ [base]) = powerSteps base (exponents ++ [top]) := by
  induction exponents generalizing base with
  | nil => rfl
  | cons exponent exponents ih =>
      rw [List.reverse_cons, raisedSteps_append, ih, foldl_pow_eq_power]
      rfl

/-- The step that is recorded when a power is folded. -/
theorem step_pow_eq (base exponent : Float) :
    Step.mk (Binary64.text base ++ " ^ " ++ Binary64.text exponent)
        (Operator.pow.apply base exponent) = Operator.pow.step base exponent := by
  have hsign : " ^ " = " " ++ Operator.pow.symbol.toString ++ " " := by decide
  simp only [Operator.step, hsign, String.append_assoc]

namespace Run

variable {policy : NamePolicy} {values : List Float} {waiting : List Waiting}
variable {vars : Variables} {trace : Trace}

variable (values waiting vars trace) in
theorem raise_apply (top : Float) (below : List Float) :
    (raise below.length).run
        ⟨⟨top :: (below ++ values)⟩,
          ⟨List.replicate below.length (.operator .pow) ++ waiting⟩, vars, trace⟩ =
      .ok () ⟨⟨below.foldl (fun exponent base => Operator.pow.apply base exponent) top :: values⟩,
        ⟨waiting⟩, vars, trace.extend (raisedSteps top below)⟩ := by
  induction below generalizing top trace with
  | nil => rw [raisedSteps, Trace.extend_nil]; rfl
  | cons base below ih =>
      simp only [List.length_cons, raise, List.replicate_succ, List.cons_append]
      rw [bind_of_ok (takeValue_cons _), bind_of_ok (takeValue_cons _),
        bind_of_ok (dropWaiting_cons _), bind_of_ok (record_apply _ _),
        bind_of_ok (pushValue_apply _), ih, Trace.add_eq_extend, step_pow_eq,
        ← Trace.extend_append]
      rfl

/-- Operands are pushed in order, and their names declared. -/
theorem forM_readOperand {operands : List Operand}
    (hr : AllReadable policy vars (operands.map Operand.token)) :
    ((operands.map Operand.token).forM fun operand => do
        pushValue (← readOperand policy operand)).run
        ⟨⟨values⟩, ⟨waiting⟩, vars, trace⟩ =
      .ok () ⟨⟨(operands.map (Operand.value vars.read)).reverse ++ values⟩, ⟨waiting⟩,
        vars.declareAll (names (operands.map Operand.token)), trace⟩ := by
  induction operands generalizing values vars with
  | nil => rfl
  | cons operand operands ih =>
      have hs : (operand :: operands).map Operand.token =
          [operand.token] ++ operands.map Operand.token := rfl
      rw [hs] at hr ⊢
      obtain ⟨ho, hr⟩ := allReadable_append.mp hr
      have hp : (do pushValue (← readOperand policy operand.token)).run
            ⟨⟨values⟩, ⟨waiting⟩, vars, trace⟩ =
          .ok () ⟨⟨operand.value vars.read :: values⟩, ⟨waiting⟩,
            vars.declareAll (names [operand.token]), trace⟩ := by
        rw [bind_of_ok (readOperand_of_readable ho), pushValue_apply]
      rw [List.singleton_append, List.forM, bind_of_ok hp, ih (hr.declareAll _)]
      rw [← Variables.declareAll_append, ← names_append, Variables.read_declareAll]
      simp

theorem forM_pushWaiting (entry : Waiting) (count : Nat) :
    ((List.replicate count entry).forM pushWaiting).run ⟨⟨values⟩, ⟨waiting⟩, vars, trace⟩ =
      .ok () ⟨⟨values⟩, ⟨List.replicate count entry ++ waiting⟩, vars, trace⟩ := by
  induction count generalizing waiting with
  | zero => rfl
  | succ count ih =>
      rw [List.replicate_succ, List.forM, bind_of_ok (pushWaiting_apply _), ih,
        ← List.replicate_succ, List.replicate_succ', List.append_assoc, List.singleton_append]

/-- A count of powers needs one more value than there are powers. -/
theorem lt_length_of_raise {count : Nat} {final : Machine}
    (hr : (raise count).run ⟨⟨values⟩, ⟨waiting⟩, vars, trace⟩ = .ok () final) :
    count = 0 ∨ count < values.length := by
  induction count generalizing values waiting trace with
  | zero => exact .inl rfl
  | succ count ih =>
      right
      rw [raise] at hr
      match values, hr with
      | [], hr => rw [bind_of_error (takeValue_nil)] at hr; cases hr
      | [_], hr =>
          rw [bind_of_ok (takeValue_cons _), bind_of_error (takeValue_nil)] at hr
          cases hr
      | top :: base :: below, hr =>
          rw [bind_of_ok (takeValue_cons _), bind_of_ok (takeValue_cons _)] at hr
          have hrest := ih hr
          simp only [List.length_cons] at hrest ⊢
          omega

variable (waiting trace) in
/-- A chain leaves one value: the base that lies under its exponents, raised to them. -/
theorem takeChain_apply (position : Nat) {chain : PowerChain} {operands : List Operand}
    {base : Float} {exponents left : List Float}
    (ho : chain.operands = operands.map Operand.token) (hm : chain.missing = false)
    (hr : AllReadable policy vars chain.operands)
    (hv : (operands.map (Operand.value vars.read)).reverse ++ values =
      exponents.reverse ++ base :: left)
    (hc : exponents.length = chain.carets + 1) :
    (takeChain policy position chain).run
        ⟨⟨values⟩, ⟨.operator .pow :: waiting⟩, vars, trace⟩ =
      .ok () ⟨⟨power base exponents :: left⟩, ⟨waiting⟩,
        vars.declareAll (names chain.operands), trace.extend (powerSteps base exponents)⟩ := by
  rw [ho] at hr
  obtain ⟨lower, top, rfl⟩ : ∃ lower top, exponents = lower ++ [top] := by
    have hne : exponents ≠ [] := List.ne_nil_of_length_eq_add_one hc
    exact ⟨_, _, (List.dropLast_append_getLast hne).symm⟩
  have hl : (lower.reverse ++ [base]).length = chain.carets + 1 := by simpa using hc
  have ht := raise_apply left waiting (vars.declareAll (names chain.operands)) trace top
    (lower.reverse ++ [base])
  rw [hl, List.replicate_succ', List.append_assoc, List.singleton_append] at ht
  simp only [takeChain, ho] at ht ⊢
  rw [bind_of_ok (forM_readOperand hr), bind_of_ok (forM_pushWaiting _ _), hv]
  simp only [hm, Bool.false_eq_true, if_false, List.reverse_append, List.reverse_singleton,
    List.cons_append]
  rw [← foldl_pow_eq_power, ← raisedSteps_eq_powerSteps, ← ht]
  simp

end Run
end Reckoner
