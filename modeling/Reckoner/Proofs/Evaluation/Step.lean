import Reckoner.Proofs.Evaluation.Reading

/-! # The steps of a reading

One equation for each kind of token a step can begin with. From these, what
reading a piece of a line makes of the two stacks, whatever the machine holds
besides; pieces that follow one another compose. -/

namespace Reckoner

/-- A product may be applied behind everything but a waiting power. -/
theorem Waiting.allows_product {waiting : List Waiting} {op : Operator}
    (hop : op.precedence = .product) (hw : waiting.head? ≠ some (.operator .pow)) :
    ((Stack.mk waiting).peek?.getD (.operator .add)).allows op = true := by
  cases waiting with
  | nil => simp only [Stack.peek?, List.head?_nil, Option.getD_none, Waiting.allows,
      Operator.precedence]
  | cons entry below =>
      cases entry with
      | group => rfl
      | operator top =>
          simp only [Stack.peek?, List.head?_cons, Option.getD_some, Waiting.allows, hop]
          cases top <;> first | exact absurd rfl hw | rfl

theorem Quiet.head?_ne_pow {waiting : List Waiting} (hq : Quiet waiting) :
    waiting.head? ≠ some (.operator .pow) := by
  intro h
  cases hq _ h

namespace Run

variable {policy : NamePolicy} {position : Nat} {tokens : List Token}
variable {values : List Float} {waiting : List Waiting} {vars : Variables} {trace : Trace}
variable {machine middle final : Machine}

theorem step_operand {operand : Operand} (hr : AllReadable policy vars [operand.token]) :
    (step policy position operand.token tokens).run ⟨⟨values⟩, ⟨waiting⟩, vars, trace⟩ =
      .ok ⟨tokens, List.suffix_refl tokens⟩ ⟨⟨operand.value vars.read :: values⟩, ⟨waiting⟩,
        vars.declareAll (names [operand.token]), trace⟩ := by
  cases operand with
  | number value => rfl
  | named name =>
      simp only [Operand.token, step]
      rw [bind_of_ok (readName_of_readable (hr name (by simp [names, Operand.token, Token.name?])))]
      rfl

theorem step_leftParen :
    (step policy position .leftParen tokens).run ⟨⟨values⟩, ⟨waiting⟩, vars, trace⟩ =
      .ok ⟨tokens, List.suffix_refl tokens⟩ ⟨⟨values⟩, ⟨.group :: waiting⟩, vars, trace⟩ := rfl

theorem step_rightParen {total : Float}
    (ht : (takeSum .parenthesis).run machine = .ok total ⟨⟨values⟩, ⟨waiting⟩, vars, trace⟩)
    (hs : settleProduct.run ⟨⟨total :: values⟩, ⟨waiting⟩, vars, trace⟩ = .ok () final) :
    (step policy position .rightParen tokens).run machine =
      .ok ⟨tokens, List.suffix_refl tokens⟩ final := by
  rw [step, bind_of_ok ht, bind_of_ok (pushValue_apply _), bind_of_ok hs, pure_apply]

theorem step_pow
    (hc : (takeChain policy position (.ofTokens tokens)).run
      ⟨⟨values⟩, ⟨.operator .pow :: waiting⟩, vars, trace⟩ = .ok () middle)
    (hs : settleProduct.run middle = .ok () final) :
    (step policy position (.operator .pow) tokens).run ⟨⟨values⟩, ⟨waiting⟩, vars, trace⟩ =
      .ok ⟨_, PowerChain.rest_suffix tokens⟩ final := by
  rw [step, bind_of_ok (pushWaiting_apply _), bind_of_ok hc, bind_of_ok hs, pure_apply]

theorem step_sum (op : SumOperator) :
    (step policy position (.operator op) tokens).run ⟨⟨values⟩, ⟨waiting⟩, vars, trace⟩ =
      .ok ⟨tokens, List.suffix_refl tokens⟩ ⟨⟨values⟩, ⟨.operator op :: waiting⟩, vars, trace⟩ := by
  have hp : (op.1.precedence == .product) = false := by rw [op.2]; rfl
  rw [step.eq_def]
  match op with
  | ⟨.add, _⟩ | ⟨.sub, _⟩ =>
      simp only [bind_of_ok get_apply, hp, Bool.and_false, Bool.false_and]
      rfl

variable (policy position tokens values vars trace) in
/-- A step at a product. It is taken at once unless it must wait. -/
theorem step_product (op : ProductOperator) (hw : waiting.head? ≠ some (.operator .pow)) :
    (step policy position (.operator op) tokens).run ⟨⟨values⟩, ⟨waiting⟩, vars, trace⟩ =
      if mustWait tokens then
        .ok ⟨tokens, List.suffix_refl tokens⟩ ⟨⟨values⟩, ⟨.operator op :: waiting⟩, vars, trace⟩
      else (takeProduct policy position op tokens).run ⟨⟨values⟩, ⟨waiting⟩, vars, trace⟩ := by
  have ha := Waiting.allows_product op.2 hw
  have hp : (op.1.precedence == .product) = true := by rw [op.2]; rfl
  rw [step.eq_def]
  match op with
  | ⟨.mul, _⟩ | ⟨.div, _⟩ | ⟨.rem, _⟩ =>
      simp only [bind_of_ok get_apply, ha, hp, Bool.true_and]
      cases mustWait tokens <;> rfl

theorem takeProduct_operand (op : Operator) {operand : Operand} (left : Float)
    (hr : AllReadable policy vars [operand.token]) :
    (takeProduct policy position op (operand.token :: tokens)).run
        ⟨⟨left :: values⟩, ⟨waiting⟩, vars, trace⟩ =
      .ok ⟨tokens, List.suffix_cons operand.token tokens⟩
        ⟨⟨op.apply left (operand.value vars.read) :: values⟩, ⟨waiting⟩,
          vars.declareAll (names [operand.token]),
          trace.extend [op.step left (operand.value vars.read)]⟩ := by
  rw [takeProduct]
  simp only [Operand.isOperand_token, if_true]
  rw [bind_of_ok (readOperand_of_readable hr), bind_of_ok (applyTop_cons _ _ _), pure_apply]

end Run

/-- The two stacks of a machine, listed from the top down. -/
@[ext] structure Stacks where
  values : List Float
  waiting : List Waiting

/-- What becomes of the stacks when a product that waits takes the value on top. -/
inductive Settles : Stacks → Stacks → Prop
  | quiet {values waiting} (hq : Quiet waiting) : Settles ⟨values, waiting⟩ ⟨values, waiting⟩
  | product (op : ProductOperator) (left right : Float) {values waiting} :
      Settles ⟨right :: left :: values, .operator op :: waiting⟩
        ⟨op.1.apply left right :: values, waiting⟩

theorem Settles.settleProduct {before after : Stacks} (h : Settles before after)
    (vars : Variables) (trace : Trace) :
    ∃ trace', Run.settleProduct.run ⟨⟨before.values⟩, ⟨before.waiting⟩, vars, trace⟩ =
      .ok () ⟨⟨after.values⟩, ⟨after.waiting⟩, vars, trace'⟩ := by
  cases h with
  | quiet hq => exact ⟨trace, Run.settleProduct_of_quiet hq⟩
  | product op left right => exact ⟨_, Run.settleProduct_of_product op left right⟩

/-- Reading `piece` in front of `rest` turns the stacks `before` into `after`
and declares the names of the piece. -/
def Turns (policy : NamePolicy) (read : String → Float) (piece rest : List Token)
    (before after : Stacks) : Prop :=
  ∀ start done vars trace, vars.read = read → Run.AllReadable policy vars piece →
    ∃ trace', Reading.Leads policy start
      ⟨done, piece ++ rest, ⟨⟨before.values⟩, ⟨before.waiting⟩, vars, trace⟩⟩
      ⟨done ++ piece, rest,
        ⟨⟨after.values⟩, ⟨after.waiting⟩, vars.declareAll (names piece), trace'⟩⟩

namespace Turns

variable {policy : NamePolicy} {read : String → Float} {rest : List Token}
variable {values : List Float} {waiting : List Waiting} {before middle after : Stacks}

theorem nil : Turns policy read [] rest before before := by
  intro start done vars trace _ _
  rw [List.append_nil]
  exact ⟨trace, .refl⟩

theorem append {first second : List Token}
    (hf : Turns policy read first (second ++ rest) before middle)
    (hs : Turns policy read second rest middle after) :
    Turns policy read (first ++ second) rest before after := by
  intro start done vars trace hv hr
  obtain ⟨hrf, hrs⟩ := Run.allReadable_append.mp hr
  obtain ⟨trace₁, h₁⟩ := hf start done vars trace hv hrf
  obtain ⟨trace₂, h₂⟩ := hs start (done ++ first) (vars.declareAll (names first)) trace₁
    (by rw [Variables.read_declareAll, hv]) (hrs.declareAll _)
  refine ⟨trace₂, ?_⟩
  rw [names_append, Variables.declareAll_append, List.append_assoc, ← List.append_assoc done]
  exact h₁.trans h₂

theorem operand (operand : Operand) :
    Turns policy read [operand.token] rest ⟨values, waiting⟩
      ⟨operand.value read :: values, waiting⟩ := by
  rintro start done vars trace rfl hr
  exact ⟨trace, .single (.step (Run.step_operand hr) rfl)⟩

theorem leftParen :
    Turns policy read [.leftParen] rest ⟨values, waiting⟩ ⟨values, .group :: waiting⟩ := by
  intro start done vars trace _ _
  exact ⟨trace, .single (.step Run.step_leftParen rfl)⟩

theorem rightParen (terms : Terms) (first : Float)
    (hs : Settles ⟨terms.total first :: values, waiting⟩ after) :
    Turns policy read [.rightParen] rest
      ⟨terms.values ++ first :: values, terms.waiting ++ .group :: waiting⟩ after := by
  intro start done vars trace _ _
  obtain ⟨trace₁, ht⟩ := Run.takeSum_terms values vars trace terms first
    (SumEnd.bounds_parenthesis waiting)
  obtain ⟨trace₂, hs⟩ := hs.settleProduct vars trace₁
  exact ⟨trace₂, .single (.step (Run.step_rightParen ht hs) rfl)⟩

/-- A step at a caret whose chain has no missing exponent. -/
theorem of_chain {piece : List Token} (tokens : List Token) (operands : List Operand) {base : Float}
    {exponents : List Float} (hp : .operator .pow :: tokens = piece ++ rest)
    (ho : (PowerChain.ofTokens tokens).operands = operands.map Operand.token)
    (hm : (PowerChain.ofTokens tokens).missing = false)
    (hrest : (PowerChain.ofTokens tokens).rest = rest)
    (hn : names piece = names (operands.map Operand.token))
    (hv : (operands.map (Operand.value read)).reverse ++ before.values =
      exponents.reverse ++ base :: values)
    (hc : exponents.length = (PowerChain.ofTokens tokens).carets + 1)
    (hs : Settles ⟨Reckoner.power base exponents :: values, before.waiting⟩ after) :
    Turns policy read piece rest before after := by
  rintro start done vars trace rfl hr
  have hr' : Run.AllReadable policy vars (PowerChain.ofTokens tokens).operands := by
    rwa [ho, Run.AllReadable, ← hn]
  have ht := Run.takeChain_apply before.waiting trace (start + done.length) ho hm hr' hv hc
  obtain ⟨trace₂, hs⟩ := hs.settleProduct
    (vars.declareAll (names (PowerChain.ofTokens tokens).operands))
    (trace.extend (powerSteps base exponents))
  have hp' : .operator .pow :: tokens = piece ++ (PowerChain.ofTokens tokens).rest :=
    hp.trans (congrArg (piece ++ ·) hrest.symm)
  have hx := Reading.Next.step (Run.step_pow ht hs) hp'
  simp only [hrest, ho, ← hn] at hx
  rw [← hp]
  exact ⟨trace₂, .single hx⟩

/-- A chain behind its base, read up to a token that does not go on with it. -/
theorem power {exponents : List Operand} (base : Float) (hne : exponents ≠ []) (hn : NoPower rest)
    (hs : Settles ⟨Reckoner.power base (exponents.map (Operand.value read)) :: values, waiting⟩
      after) :
    Turns policy read (powerTokens exponents) rest ⟨base :: values, waiting⟩ after := by
  obtain ⟨exponent, exponents, rfl⟩ := List.exists_cons_of_ne_nil hne
  have hc := PowerChain.ofTokens_complete exponent exponents hn
  refine of_chain (exponent.token :: powerTokens exponents ++ rest) (exponent :: exponents) rfl
    ?_ ?_ ?_ (names_powerTokens _) rfl ?_ hs
  all_goals
    rw [hc]
    simp [PowerChain.complete]

/-- A chain with a further caret at the end of the line. -/
theorem hanging (exponents : List Operand) (base top : Float)
    (hs : Settles ⟨Reckoner.power base (top :: exponents.map (Operand.value read)) :: values,
      waiting⟩ after) :
    Turns policy read (powerTokens exponents ++ [.operator .pow]) []
      ⟨top :: base :: values, waiting⟩ after := by
  have hn : names (powerTokens exponents ++ [.operator .pow]) =
      names (exponents.map Operand.token) := by
    rw [names_append, names_powerTokens]
    exact List.append_nil _
  have hv : (exponents.map (Operand.value read)).reverse ++ top :: base :: values =
      (top :: exponents.map (Operand.value read)).reverse ++ base :: values := by simp
  cases exponents with
  | nil => exact of_chain [] [] rfl rfl rfl rfl hn hv rfl hs
  | cons exponent exponents =>
      have hc := PowerChain.ofTokens_hanging exponent exponents
      refine of_chain (exponent.token :: powerTokens exponents ++ [.operator .pow])
        (exponent :: exponents) (by simp) ?_ ?_ ?_ hn hv ?_ hs
      all_goals
        rw [hc]
        simp [PowerChain.hanging]

theorem sum (op : SumOperator) :
    Turns policy read [.operator op] rest ⟨values, waiting⟩ ⟨values, .operator op :: waiting⟩ := by
  intro start done vars trace _ _
  exact ⟨trace, .single (.step (Run.step_sum op) rfl)⟩

theorem productWaits (op : ProductOperator) (hw : waiting.head? ≠ some (.operator .pow))
    (hm : Run.mustWait rest = true) :
    Turns policy read [.operator op] rest ⟨values, waiting⟩ ⟨values, .operator op :: waiting⟩ := by
  intro start done vars trace _ _
  have hs := Run.step_product policy (start + done.length) rest values vars trace op hw
  rw [if_pos hm] at hs
  exact ⟨trace, .single (.step hs rfl)⟩

theorem product (op : ProductOperator) (operand : Operand) (left : Float)
    (hw : waiting.head? ≠ some (.operator .pow)) (hn : NoPower rest) :
    Turns policy read [.operator op, operand.token] rest ⟨left :: values, waiting⟩
      ⟨op.1.apply left (operand.value read) :: values, waiting⟩ := by
  rintro start done vars trace rfl hr
  have hm : Run.mustWait (operand.token :: rest) = false := by
    cases operand <;> cases rest <;> simp_all [Run.mustWait, Operand.token]
  have hr' : Run.AllReadable policy vars [operand.token] := hr
  have hs := Run.step_product policy (start + done.length) (operand.token :: rest) (left :: values)
    vars trace op hw
  rw [hm, if_neg Bool.false_ne_true, Run.takeProduct_operand op.1 left hr'] at hs
  exact ⟨_, .single (.step hs rfl)⟩

end Turns
end Reckoner
