import Reckoner.Proofs.Evaluation.Recording
import Reckoner.Proofs.Evaluation.Shape

/-! # Steps of machines and steps of shapes

A step of a machine succeeds exactly when there is a step between the shapes
and the names it reads may be read. In one direction the values are forgotten,
in the other any values will do. -/

namespace Reckoner

variable {policy : NamePolicy} {read : String → Float} {piece rest : List Token}
variable {before after : Shape}

theorem Shape.Settles.exists_values (h : Shape.Settles before after) (values : List Float)
    (hl : values.length = before.values) :
    ∃ values' : List Float, values'.length = after.values ∧
      Reckoner.Settles ⟨values, before.waiting⟩ ⟨values', after.waiting⟩ := by
  cases h with
  | quiet hq => exact ⟨values, hl, .quiet hq⟩
  | product op =>
      match values, hl with
      | right :: left :: values, hl => exact ⟨_, by simpa using hl, .product op left right⟩

/-- A step between shapes is taken by every machine of the first shape. -/
theorem Shape.Step.exists_values (h : Shape.Step piece rest before after)
    (hw : Powerless before.waiting) (values : List Float) (hl : values.length = before.values) :
    ∃ values' : List Float, values'.length = after.values ∧
      Turns policy read piece rest ⟨values, before.waiting⟩ ⟨values', after.waiting⟩ := by
  cases h with
  | operand operand => exact ⟨_, by simpa using hl, Turns.operand operand⟩
  | leftParen => exact ⟨values, hl, Turns.leftParen⟩
  | @rightParen signs _ count waiting _ _ hb hs =>
      subst hb
      have hl : values.length = count + 1 + signs.length := hl
      obtain ⟨terms, below, rfl, rfl⟩ := Terms.exists_of_length_le signs values (by omega)
      rw [List.length_append, Terms.length_values, Terms.length_signs] at hl
      have hb : below.length = count + 1 := by omega
      obtain ⟨first, left, rfl⟩ := List.exists_cons_of_length_eq_add_one hb
      obtain ⟨values', hl', hs'⟩ := hs.exists_values (terms.total first :: left) hb
      refine ⟨values', hl', ?_⟩
      rw [← Terms.waiting_eq_waitingSums]
      exact Turns.rightParen terms first hs'
  | @power exponents _ count waiting _ hne hn hs =>
      obtain ⟨base, left, rfl⟩ := List.exists_cons_of_length_eq_add_one hl
      obtain ⟨values', hl', hs'⟩ := hs.exists_values
        (Reckoner.power base (exponents.map (Operand.value read)) :: left) hl
      exact ⟨values', hl', Turns.power base hne hn hs'⟩
  | @hanging exponents count waiting _ hs =>
      match values, hl with
      | top :: base :: left, hl =>
          obtain ⟨values', hl', hs'⟩ := hs.exists_values
            (Reckoner.power base (top :: exponents.map (Operand.value read)) :: left)
            (by simpa using hl)
          exact ⟨values', hl', Turns.hanging exponents base top hs'⟩
  | product op operand hn =>
      obtain ⟨left, below, rfl⟩ := List.exists_cons_of_length_eq_add_one hl
      exact ⟨op.1.apply left (operand.value read) :: below, hl,
        Turns.product op operand left hw.head?_ne_pow hn⟩
  | productWaits op hm => exact ⟨values, hl, Turns.productWaits op hw.head?_ne_pow hm⟩
  | sum op => exact ⟨values, hl, Turns.sum op⟩

theorem exists_product_of_not_quiet {waiting : List Waiting} (hw : Powerless waiting)
    (hq : ¬ Quiet waiting) :
    ∃ (op : ProductOperator) (below : List Waiting), waiting = .operator op.1 :: below := by
  simp only [Quiet, not_forall] at hq
  obtain ⟨op, hh, hop⟩ := hq
  obtain ⟨below, rfl⟩ := List.head?_eq_some_iff.mp hh
  match op with
  | .mul => exact ⟨⟨.mul, rfl⟩, below, rfl⟩
  | .div => exact ⟨⟨.div, rfl⟩, below, rfl⟩
  | .rem => exact ⟨⟨.rem, rfl⟩, below, rfl⟩
  | .add | .sub => exact absurd rfl hop
  | .pow => exact absurd List.mem_cons_self hw

/-- What a successful step has read, and what it did to the shape, the variables and the trace. -/
structure StepOf (policy : NamePolicy) (tokens piece rest : List Token) (before after : Machine) :
    Prop where
  tokens_eq : tokens = piece ++ rest
  shape : Shape.Step piece rest before.shape after.shape
  readable : Run.AllReadable policy before.vars piece
  vars_eq : after.vars = before.vars.declareAll (names piece)
  recorded : ∃ steps, Recorded steps (applications piece) before after

namespace Run

variable {position : Nat} {tokens : List Token} {values : List Float} {waiting : List Waiting}
variable {vars : Variables} {trace : Trace} {machine final : Machine}

theorem settleProduct_eq_ok {value : Float} (hw : Powerless waiting)
    (h : settleProduct.run ⟨⟨value :: values⟩, ⟨waiting⟩, vars, trace⟩ = .ok () final) :
    Shape.Settles ⟨values.length + 1, waiting⟩ final.shape ∧ final.vars = vars ∧
      ∃ steps, Recorded steps 0 ⟨⟨value :: values⟩, ⟨waiting⟩, vars, trace⟩ final := by
  by_cases hq : Quiet waiting
  · rw [settleProduct_of_quiet hq] at h
    cases h
    exact ⟨.quiet hq, rfl, [], .nothing rfl rfl (List.Subset.refl _)⟩
  · obtain ⟨op, below, rfl⟩ := exists_product_of_not_quiet hw hq
    cases values with
    | nil =>
        simp only [settleProduct, bind_of_ok get_apply, Stack.peek?, List.head?_cons, op.2,
          if_true] at h
        rw [bind_of_ok (dropWaiting_cons _), bind_of_ok (takeValue_cons _), applyTop_nil] at h
        cases h
    | cons left values =>
        rw [settleProduct_of_product] at h
        cases h
        exact ⟨.product op, rfl, _, .settled op left value⟩

variable (values waiting trace) in
theorem readOperand_of_not_readable {operand : Operand}
    (hr : ¬ AllReadable policy vars [operand.token]) :
    ∃ fault, (readOperand policy operand.token).run ⟨⟨values⟩, ⟨waiting⟩, vars, trace⟩ =
      .error fault ⟨⟨values⟩, ⟨waiting⟩, vars, trace⟩ := by
  cases operand with
  | number value => exact absurd (allReadable_of_names_eq_nil rfl) hr
  | named name =>
      refine ⟨_, readName_of_not_readable ?_⟩
      intro hn
      apply hr
      intro other hm
      obtain rfl : other = name := List.mem_singleton.mp hm
      exact hn

theorem allReadable_of_forM {operands : List Operand}
    (h : ((operands.map Operand.token).forM fun operand => do
      pushValue (← readOperand policy operand)).run ⟨⟨values⟩, ⟨waiting⟩, vars, trace⟩ =
        .ok () final) :
    AllReadable policy vars (operands.map Operand.token) := by
  induction operands generalizing values vars with
  | nil => exact fun name hm => nomatch hm
  | cons operand operands ih =>
      rw [List.map_cons, List.forM, bind_eq_ok_iff] at h
      obtain ⟨_, middle, ho, ht⟩ := h
      by_cases hr : AllReadable policy vars [operand.token]
      · rw [bind_of_ok (readOperand_of_readable hr), pushValue_apply] at ho
        cases ho
        exact allReadable_append.mpr ⟨hr, hr.of_declareAll (ih ht)⟩
      · obtain ⟨fault, hf⟩ := readOperand_of_not_readable values waiting trace hr
        rw [bind_of_error hf] at ho
        cases ho

/-- A chain that could be taken has no missing exponent, could read its names
and found a value for each of its carets. -/
theorem takeChain_eq_ok {chain : PowerChain}
    (h : (takeChain policy position chain).run
      ⟨⟨values⟩, ⟨.operator .pow :: waiting⟩, vars, trace⟩ = .ok () final) :
    chain.missing = false ∧ ∀ operands : List Operand,
      chain.operands = operands.map Operand.token →
        AllReadable policy vars chain.operands ∧
          chain.carets + 1 < operands.length + values.length := by
  rw [takeChain, bind_eq_ok_iff] at h
  obtain ⟨_, middle, ho, h⟩ := h
  rw [bind_eq_ok_iff] at h
  obtain ⟨_, middle', hw, h⟩ := h
  have hm : chain.missing = false := by
    cases hc : chain.missing with
    | false => rfl
    | true =>
        rw [hc, if_pos rfl] at h
        cases h
  refine ⟨hm, ?_⟩
  intro operands he
  rw [he] at ho
  have hr := allReadable_of_forM ho
  rw [forM_readOperand hr] at ho
  cases ho
  rw [forM_pushWaiting] at hw
  cases hw
  rw [hm, if_neg Bool.false_ne_true] at h
  refine ⟨he ▸ hr, ?_⟩
  have hl := (lt_length_of_raise h).resolve_left (Nat.succ_ne_zero _)
  simpa using hl

theorem stepOf_operand (operand : Operand) {rest : Rest tokens}
    (h : (step policy position operand.token tokens).run machine = .ok rest final) :
    StepOf policy (operand.token :: tokens) [operand.token] rest.1 machine final := by
  obtain ⟨⟨values⟩, ⟨waiting⟩, vars, trace⟩ := machine
  by_cases hr : AllReadable policy vars [operand.token]
  · rw [step_operand hr] at h
    cases h
    refine ⟨rfl, .operand operand, hr, rfl, [], .nothing rfl ?_ (List.subset_cons_self _ _)⟩
    rw [applications_operand]
    rfl
  · obtain ⟨fault, hf⟩ := readOperand_of_not_readable values waiting trace hr
    cases operand with
    | number value => exact absurd (allReadable_of_names_eq_nil rfl) hr
    | named name =>
        change (readName policy name).run _ = _ at hf
        rw [Operand.token, step, bind_of_error hf] at h
        cases h

theorem stepOf_rightParen {rest : Rest tokens} (hw : Powerless machine.waiting.items)
    (h : (step policy position .rightParen tokens).run machine = .ok rest final) :
    StepOf policy (.rightParen :: tokens) [.rightParen] rest.1 machine final := by
  obtain ⟨⟨values⟩, ⟨waiting⟩, vars, trace⟩ := machine
  rw [step, bind_eq_ok_iff] at h
  obtain ⟨total, middle, hsum, h⟩ := h
  obtain ⟨gathered, hg, rfl, rfl⟩ := gather_of_takeSum_ok hsum
  obtain ⟨terms, first, below, rfl, rfl, rfl, -⟩ := gather_eq_ok_iff.mp hg
  rw [bind_of_ok (pushValue_apply _), bind_eq_ok_iff] at h
  obtain ⟨_, final', hs, h⟩ := h
  cases h
  obtain ⟨hs, hv, steps, hrecorded⟩ := settleProduct_eq_ok hw.of_append.tail hs
  refine ⟨rfl, .rightParen terms.signs ?_ hs, allReadable_of_names_eq_nil rfl, hv, _,
    (Recorded.closed terms).trans hrecorded⟩
  ext1
  · simp [Machine.shape, Stack.size]
    omega
  · exact congrArg (· ++ _) terms.waiting_eq_waitingSums

/-- What a chain leaves, once it is known which value is its base. -/
theorem settles_of_takeChain {chain : PowerChain} (operands : List Operand) (base : Float)
    (exponents left : List Float) {middle : Machine} (hw : Powerless waiting)
    (ho : chain.operands = operands.map Operand.token) (hm : chain.missing = false)
    (hr : AllReadable policy vars chain.operands)
    (hv : (operands.map (Operand.value vars.read)).reverse ++ values =
      exponents.reverse ++ base :: left)
    (hl : exponents.length = chain.carets + 1)
    (hc : (takeChain policy position chain).run
      ⟨⟨values⟩, ⟨.operator .pow :: waiting⟩, vars, trace⟩ = .ok () middle)
    (hs : settleProduct.run middle = .ok () final) :
    Shape.Settles ⟨left.length + 1, waiting⟩ final.shape ∧
      final.vars = vars.declareAll (names (powerTokens operands)) ∧
      ∃ steps, Recorded steps exponents.length ⟨⟨values⟩, ⟨waiting⟩, vars, trace⟩ final := by
  rw [takeChain_apply waiting trace position ho hm hr hv hl] at hc
  cases hc
  obtain ⟨hsettles, hvars, steps, hrecorded⟩ := settleProduct_eq_ok hw hs
  rw [names_powerTokens, ← ho]
  refine ⟨hsettles, hvars, _, (Recorded.chain base ?_).trans hrecorded⟩
  exact List.ne_nil_of_length_eq_add_one hl

theorem stepOf_pow {rest : Rest tokens} (hw : Powerless machine.waiting.items)
    (h : (step policy position (.operator .pow) tokens).run machine = .ok rest final) :
    ∃ piece, StepOf policy (.operator .pow :: tokens) piece rest.1 machine final := by
  obtain ⟨⟨values⟩, ⟨waiting⟩, vars, trace⟩ := machine
  rw [step, bind_of_ok (pushWaiting_apply _), bind_eq_ok_iff] at h
  obtain ⟨_, middle, hc, h⟩ := h
  rw [bind_eq_ok_iff] at h
  obtain ⟨_, final', hs, h⟩ := h
  cases h
  change ∃ piece, StepOf policy _ piece (PowerChain.ofTokens tokens).rest _ _
  obtain ⟨hm, hread⟩ := takeChain_eq_ok hc
  obtain ⟨exponent, exponents, after, hn, ht, he⟩ | ⟨exponents, ht, he⟩ :=
    PowerChain.ofTokens_cases hm
  · rw [he] at hc hread ⊢
    obtain ⟨hr, hl⟩ := hread (exponent :: exponents) rfl
    obtain ⟨base, left, rfl⟩ : ∃ base left, values = base :: left := by
      apply List.exists_cons_of_length_pos
      simp only [PowerChain.complete, List.length_cons] at hl
      omega
    obtain ⟨hs, hv, steps, hrecorded⟩ := settles_of_takeChain (exponent :: exponents) base
      ((exponent :: exponents).map (Operand.value vars.read)) left hw rfl rfl hr rfl
      (by simp [PowerChain.complete]) hc hs
    refine ⟨powerTokens (exponent :: exponents), congrArg _ ht,
      .power _ (List.cons_ne_nil _ _) hn hs, by rwa [AllReadable, names_powerTokens], hv, steps, ?_⟩
    rwa [applications_powerTokens, ← List.length_map (Operand.value vars.read)]
  · rw [he] at hc hread ⊢
    obtain ⟨hr, hl⟩ := hread exponents rfl
    simp only [PowerChain.hanging] at hl
    obtain ⟨top, below, rfl⟩ : ∃ top below, values = top :: below := by
      apply List.exists_cons_of_length_pos
      omega
    obtain ⟨base, left, rfl⟩ : ∃ base left, below = base :: left := by
      apply List.exists_cons_of_length_pos
      rw [List.length_cons] at hl
      omega
    obtain ⟨hs, hv, steps, hrecorded⟩ := settles_of_takeChain exponents base
      (top :: exponents.map (Operand.value vars.read)) left hw rfl rfl hr (by simp)
      (by simp [PowerChain.hanging]) hc hs
    have hn : names (powerTokens exponents ++ [.operator .pow]) =
        names (powerTokens exponents) := by
      rw [names_append]
      exact List.append_nil _
    refine ⟨powerTokens exponents ++ [.operator .pow], ?_, .hanging exponents hs, ?_, ?_, steps, ?_⟩
    · rw [ht]
      exact (List.append_nil _).symm
    · rwa [AllReadable, hn, names_powerTokens]
    · rw [hn, hv]
    · rw [applications_append, applications_powerTokens]
      rwa [List.length_cons, List.length_map] at hrecorded

theorem stepOf_takeProduct {rest : Rest tokens} (op : ProductOperator)
    (hm : mustWait tokens = false)
    (h : (takeProduct policy position op tokens).run ⟨⟨values⟩, ⟨waiting⟩, vars, trace⟩ =
      .ok rest final) :
    ∃ piece, StepOf policy (.operator op :: tokens) piece rest.1
      ⟨⟨values⟩, ⟨waiting⟩, vars, trace⟩ final := by
  cases tokens with
  | nil => cases h
  | cons token tokens =>
      cases ho : token.isOperand with
      | false =>
          simp only [takeProduct, ho, Bool.false_eq_true, if_false, throw_apply] at h
          cases h
      | true =>
          obtain ⟨operand, rfl⟩ := Operand.exists_of_isOperand ho
          have hn : NoPower tokens := by
            intro hh
            obtain ⟨after, rfl⟩ := List.head?_eq_some_iff.mp hh
            cases operand <;> cases hm
          rw [takeProduct, if_pos ho, bind_eq_ok_iff] at h
          obtain ⟨right, middle, hread, h⟩ := h
          by_cases hr : AllReadable policy vars [operand.token]
          · rw [readOperand_of_readable hr] at hread
            cases hread
            cases values with
            | nil =>
                rw [bind_of_error (applyTop_nil _ _)] at h
                cases h
            | cons left values =>
                rw [bind_of_ok (applyTop_cons _ _ _)] at h
                cases h
                exact ⟨[.operator op, operand.token], rfl, .product op operand hn, hr, rfl, _,
                  .product op operand left _⟩
          · obtain ⟨fault, hf⟩ := readOperand_of_not_readable values waiting trace hr
            rw [hf] at hread
            cases hread

theorem stepOf_product {rest : Rest tokens} (op : ProductOperator)
    (hw : Powerless machine.waiting.items)
    (h : (step policy position (.operator op) tokens).run machine = .ok rest final) :
    ∃ piece, StepOf policy (.operator op :: tokens) piece rest.1 machine final := by
  obtain ⟨⟨values⟩, ⟨waiting⟩, vars, trace⟩ := machine
  rw [step_product _ _ _ _ _ _ op hw.head?_ne_pow] at h
  cases hm : mustWait tokens with
  | true =>
      rw [if_pos hm] at h
      cases h
      exact ⟨[.operator op], rfl, .productWaits op hm, allReadable_of_names_eq_nil rfl, rfl, _,
        .waits op⟩
  | false =>
      rw [hm, if_neg Bool.false_ne_true] at h
      exact stepOf_takeProduct op hm h

theorem stepOf_sum {rest : Rest tokens} (op : SumOperator)
    (h : (step policy position (.operator op) tokens).run machine = .ok rest final) :
    StepOf policy (.operator op :: tokens) [.operator op] rest.1 machine final := by
  obtain ⟨⟨values⟩, ⟨waiting⟩, vars, trace⟩ := machine
  rw [step_sum] at h
  cases h
  exact ⟨rfl, .sum op, allReadable_of_names_eq_nil rfl, rfl, _, .waits op⟩

/-- A successful step of a machine is a step of its shape. -/
theorem step_eq_ok {token : Token} {rest : Rest tokens} (hw : Powerless machine.waiting.items)
    (h : (step policy position token tokens).run machine = .ok rest final) :
    ∃ piece, StepOf policy (token :: tokens) piece rest.1 machine final := by
  match token with
  | .number value => exact ⟨_, stepOf_operand (.number value) h⟩
  | .identifier name => exact ⟨_, stepOf_operand (.named name) h⟩
  | .leftParen =>
      cases h
      exact ⟨[.leftParen], rfl, .leftParen, allReadable_of_names_eq_nil rfl, rfl, _,
        .nothing rfl rfl (List.Subset.refl _)⟩
  | .rightParen => exact ⟨_, stepOf_rightParen hw h⟩
  | .assign => cases h
  | .operator .pow => exact stepOf_pow hw h
  | .operator .mul => exact stepOf_product ⟨.mul, rfl⟩ hw h
  | .operator .div => exact stepOf_product ⟨.div, rfl⟩ hw h
  | .operator .rem => exact stepOf_product ⟨.rem, rfl⟩ hw h
  | .operator .add => exact ⟨_, stepOf_sum ⟨.add, rfl⟩ h⟩
  | .operator .sub => exact ⟨_, stepOf_sum ⟨.sub, rfl⟩ h⟩

end Run

end Reckoner
