import Reckoner.Proofs.Evaluation.Supply

/-! # Only supplied lists have a value

The converse is an invariant of the steps. What has been read is supplied,
unless a product still waits for a right operand that must be a group or a
power, or a sum lies on a product that waits, which no later step removes. -/

namespace Reckoner

mutual

/-- The tokens read are supplied, in each group that is open. -/
inductive Covered : (done : List Token) → Shape → Prop
  | intro {front tokens : List Token} {before after : Nat} {signs : List SumOperator}
      {waiting : List Waiting} (ho : Opened front ⟨before, waiting⟩)
      (h : Supplied before tokens after signs.length) :
      Covered (front ++ tokens) ⟨after, waitingSums signs ++ waiting⟩

/-- The tokens read end where the line or a group begins. -/
inductive Opened : (done : List Token) → Shape → Prop
  | line : Opened [] ⟨0, []⟩
  | group {done count waiting} (h : Covered done ⟨count, waiting⟩) :
      Opened (done ++ [.leftParen]) ⟨count, .group :: waiting⟩
  | productGroup (op : ProductOperator) {done count waiting} (h : Covered done ⟨count, waiting⟩) :
      Opened (done ++ [.operator op.1, .leftParen]) ⟨count, .group :: .operator op.1 :: waiting⟩

end

theorem Opened.quiet {done : List Token} {shape : Shape} (h : Opened done shape) :
    Quiet shape.waiting := by
  cases h with
  | line => exact quiet_nil
  | group => exact quiet_group _
  | productGroup => exact quiet_group _

theorem Opened.covered {done : List Token} {shape : Shape} (h : Opened done shape) :
    Covered done shape := by
  have hc : Covered (done ++ []) ⟨shape.values, waitingSums [] ++ shape.waiting⟩ := .intro h .nil
  rwa [List.append_nil] at hc

namespace Covered

variable {done : List Token} {count : Nat} {waiting : List Waiting}

theorem quiet {shape : Shape} (h : Covered done shape) : Quiet shape.waiting := by
  cases h with
  | intro ho _ => exact quiet_sums _ ho.quiet

theorem operand (operand : Operand) (h : Covered done ⟨count, waiting⟩) :
    Covered (done ++ [operand.token]) ⟨count + 1, waiting⟩ := by
  cases h with
  | intro ho h =>
      rw [List.append_assoc]
      exact .intro ho (h.operand operand)

theorem sum (op : SumOperator) (h : Covered done ⟨count, waiting⟩) :
    Covered (done ++ [.operator op.1]) ⟨count, .operator op.1 :: waiting⟩ := by
  cases h with
  | @intro front tokens before after signs waiting ho h =>
      rw [List.append_assoc]
      have hc : Supplied before (tokens ++ [.operator op.1]) count (op :: signs).length := h.sum op
      exact .intro ho hc

theorem bound {op : Operator} (hop : op.precedence ≠ .sum) (operand : Operand)
    (h : Covered done ⟨count + 1, waiting⟩) :
    Covered (done ++ [.operator op, operand.token]) ⟨count + 1, waiting⟩ := by
  generalize hc : count + 1 = after at h
  cases h with
  | intro ho h =>
      subst hc
      rw [List.append_assoc]
      exact .intro ho (h.bound hop operand)

theorem powers (exponents : List Operand) (h : Covered done ⟨count + 1, waiting⟩) :
    Covered (done ++ powerTokens exponents) ⟨count + 1, waiting⟩ := by
  induction exponents generalizing done with
  | nil => rwa [powerTokens_nil, List.append_nil]
  | cons exponent exponents ih =>
      have hp : Operator.pow.precedence ≠ .sum := nofun
      have hc := ih (h.bound hp exponent)
      rwa [List.append_assoc] at hc

end Covered

/-- The sums above the innermost group are determined by what waits. -/
theorem sums_group_inj {signs signs' : List SumOperator} {waiting waiting' : List Waiting}
    (h : waitingSums signs ++ .group :: waiting = waitingSums signs' ++ .group :: waiting') :
    signs = signs' ∧ waiting = waiting' := by
  induction signs generalizing signs' with
  | nil =>
      cases signs' with
      | nil => exact ⟨rfl, (List.cons.inj h).2⟩
      | cons op' signs' => cases h
  | cons op signs ih =>
      cases signs' with
      | nil => cases h
      | cons op' signs' =>
          obtain ⟨he, h⟩ := List.cons.inj h
          obtain ⟨rfl, rfl⟩ := ih h
          exact ⟨congrArg (· :: signs) (Subtype.ext (Waiting.operator.inj he)), rfl⟩

/-- A closing parenthesis completes the group that is open. -/
theorem Covered.close {done : List Token} {count : Nat} {signs : List SumOperator}
    {waiting : List Waiting} {after : Shape}
    (h : Covered done ⟨count + 1 + signs.length, waitingSums signs ++ .group :: waiting⟩)
    (hs : Shape.Settles ⟨count + 1, waiting⟩ after) :
    Covered (done ++ [.rightParen]) after := by
  generalize hv : count + 1 + signs.length = values at h
  generalize hw : waitingSums signs ++ .group :: waiting = all at h
  cases h with
  | @intro front tokens before _ signs' inner ho h =>
      cases ho with
      | line =>
          have hm : .group ∈ waitingSums signs' ++ [] := by
            rw [← hw]
            simp
          rw [List.append_nil] at hm
          exact absurd hm (group_not_mem_sums signs')
      | @group done _ waiting' hg =>
          obtain ⟨rfl, rfl⟩ := sums_group_inj hw
          obtain rfl := hs.eq_of_quiet hg.quiet
          cases hg with
          | @intro front outer first _ signs'' below ho hg =>
              have hc := Covered.intro ho (hg.group (hv ▸ h))
              simpa using hc
      | @productGroup op done _ waiting' hg =>
          obtain ⟨rfl, rfl⟩ := sums_group_inj hw
          obtain ⟨left, hl, rfl⟩ := hs.eq_of_product
          obtain rfl : count = left + 1 := Nat.succ.inj hl
          cases hg with
          | @intro front outer first _ signs'' below ho hg =>
              have hc := Covered.intro ho (hg.productGroup op (hv ▸ h))
              simpa using hc

/-- A sum lies directly on a product. -/
inductive Doomed : List Waiting → Prop
  | here (sum : SumOperator) (product : ProductOperator) {waiting} :
      Doomed (.operator sum.1 :: .operator product.1 :: waiting)
  | under (entry : Waiting) {waiting} (h : Doomed waiting) : Doomed (entry :: waiting)

namespace Doomed

variable {entry : Waiting} {waiting : List Waiting}

/-- What lies under a doomed entry is doomed, unless it begins with a product. -/
theorem tail (h : Doomed (entry :: waiting))
    (hp : (∃ sum : SumOperator, entry = .operator sum.1) → Quiet waiting) : Doomed waiting := by
  generalize ha : entry :: waiting = all at h
  cases h with
  | here sum product =>
      obtain ⟨rfl, rfl⟩ := List.cons.inj ha
      exact absurd rfl ((hp ⟨sum, rfl⟩).ne_product product)
  | under _ h =>
      obtain ⟨_, rfl⟩ := List.cons.inj ha
      exact h

/-- What dooms a stack lies under the sums of a group, and under the group. -/
theorem of_sums {signs : List SumOperator} {inner : List Waiting} (hq : Quiet inner)
    (h : Doomed (waitingSums signs ++ inner)) : Doomed inner := by
  induction signs with
  | nil => exact h
  | cons op signs ih => exact ih (h.tail fun _ => quiet_sums signs hq)

theorem settles {before after : Shape} (hs : Shape.Settles before after)
    (h : Doomed before.waiting) : Doomed after.waiting := by
  cases hs with
  | quiet => exact h
  | product op =>
      refine h.tail ?_
      rintro ⟨sum, he⟩
      have hq := quiet_sum sum []
      rw [← he] at hq
      exact absurd rfl (hq.ne_product op)

/-- No step removes what dooms a stack. -/
theorem step {piece rest : List Token} {before after : Shape}
    (hs : Shape.Step piece rest before after) (h : Doomed before.waiting) :
    Doomed after.waiting := by
  cases hs with
  | operand => exact h
  | leftParen => exact .under _ h
  | rightParen signs hb hs =>
      subst hb
      have hg := of_sums (quiet_group _) h
      exact (hg.tail nofun).settles hs
  | power _ _ _ hs => exact h.settles hs
  | hanging _ hs => exact h.settles hs
  | product => exact h
  | productWaits => exact .under _ h
  | sum => exact .under _ h

end Doomed
/-- What holds between two steps that read `done` and come to `rest`. -/
inductive Reached : (done rest : List Token) → Shape → Prop
  | covered {done rest shape} (h : Covered done shape) : Reached done rest shape
  | product (op : ProductOperator) {done rest count waiting} (h : Covered done ⟨count, waiting⟩)
      (hm : Run.mustWait rest = true) :
      Reached (done ++ [.operator op.1]) rest ⟨count, .operator op.1 :: waiting⟩
  | productOperand (op : ProductOperator) (operand : Operand) {done tokens count waiting}
      (h : Covered done ⟨count, waiting⟩) :
      Reached (done ++ [.operator op.1, operand.token]) (.operator .pow :: tokens)
        ⟨count + 1, .operator op.1 :: waiting⟩
  /-- A caret at the end of the line has taken the last two values. -/
  | hung {done count waiting} (h : Covered done ⟨count + 2, waiting⟩) :
      Reached (done ++ [.operator .pow]) [] ⟨count + 1, waiting⟩
  | stuck {done tokens shape} :
      Reached done (.operator .pow :: .operator .pow :: tokens) shape
  | doomed {done rest shape} (h : Doomed shape.waiting) : Reached done rest shape

section Steps

variable {done piece rest : List Token} {before after : Shape} {count : Nat}
variable {waiting : List Waiting}

theorem Covered.step (h : Covered done before) (hs : Shape.Step piece rest before after) :
    Reached (done ++ piece) rest after := by
  cases hs with
  | operand operand => exact .covered (h.operand operand)
  | leftParen => exact .covered (Opened.group h).covered
  | rightParen signs hb hs =>
      subst hb
      exact .covered (h.close hs)
  | power exponents hne hn hs =>
      rw [hs.eq_of_quiet h.quiet]
      exact .covered (h.powers exponents)
  | hanging exponents hs =>
      rw [hs.eq_of_quiet h.quiet, ← List.append_assoc]
      exact .hung (h.powers exponents)
  | product op operand hn =>
      have hop : op.1.precedence ≠ .sum := by simp [op.2]
      exact .covered (h.bound hop operand)
  | productWaits op hm => exact .product op h hm
  | sum op => exact .covered (h.sum op)

theorem of_mustWait {tokens : List Token} (hm : Run.mustWait tokens = true) :
    (∃ tail, tokens = .leftParen :: tail) ∨
      ∃ token tail, tokens = token :: .operator .pow :: tail := by
  unfold Run.mustWait at hm
  split at hm
  · exact .inl ⟨_, rfl⟩
  · exact .inr ⟨_, _, rfl⟩
  · cases hm

/-- An operator in front of an operand is nothing to wait for. -/
theorem mustWait_operator_ne_true (op : Operator) (operand : Operand) (tail : List Token) :
    Run.mustWait (.operator op :: operand.token :: tail) ≠ true := by
  cases operand <;> nofun

/-- Behind a product that waits comes the group or the base that it waits for,
or the reading cannot succeed. -/
theorem Covered.step_product (op : ProductOperator) (h : Covered done ⟨count, waiting⟩)
    (hm : Run.mustWait (piece ++ rest) = true)
    (hs : Shape.Step piece rest ⟨count, .operator op.1 :: waiting⟩ after) :
    Reached (done ++ [.operator op.1] ++ piece) rest after := by
  rw [List.append_assoc]
  generalize hb : Shape.mk count (.operator op.1 :: waiting) = before at hs
  cases hs with
  | operand operand =>
      cases hb
      rcases of_mustWait hm with ⟨tail, ht⟩ | ⟨token, tail, ht⟩
      · exact absurd (List.cons.inj ht).1 operand.token_ne_leftParen
      · obtain rfl := (List.cons.inj ht).2
        exact .productOperand op operand h
  | leftParen =>
      cases hb
      exact .covered (Opened.productGroup op h).covered
  | @rightParen signs _ _ inner _ _ hb' hs =>
      rw [← hb] at hb'
      have hw := (Shape.mk.inj hb').2
      exact absurd hw.symm ((quiet_sums signs (quiet_group inner)).ne_product op)
  | power exponents hne hn hs =>
      obtain ⟨exponent, exponents, rfl⟩ := List.exists_cons_of_ne_nil hne
      exact absurd hm (mustWait_operator_ne_true .pow exponent _)
  | hanging exponents hs =>
      cases exponents with
      | nil => cases hm
      | cons exponent exponents =>
          exact absurd hm (mustWait_operator_ne_true .pow exponent _)
  | product op' operand hn =>
      exact absurd hm (mustWait_operator_ne_true op'.1 operand _)
  | productWaits op' hm' =>
      rcases of_mustWait hm with ⟨tail, ht⟩ | ⟨token, tail, ht⟩
      · cases ht
      · obtain rfl := (List.cons.inj ht).2
        rcases of_mustWait hm' with ⟨tail', ht'⟩ | ⟨token', tail', ht'⟩
        · cases ht'
        · obtain rfl := (List.cons.inj ht').2
          exact .stuck
  | sum op' =>
      cases hb
      exact .doomed (.here op' op)

/-- The powers behind the right operand of a product that waits are read before it is taken. -/
theorem Covered.step_productOperand (op : ProductOperator) (operand : Operand)
    {tokens : List Token} (h : Covered done ⟨count, waiting⟩)
    (hp : .operator .pow :: tokens = piece ++ rest)
    (hs : Shape.Step piece rest ⟨count + 1, .operator op.1 :: waiting⟩ after) :
    Reached (done ++ [.operator op.1, operand.token] ++ piece) rest after := by
  have hop : op.1.precedence ≠ .sum := by simp [op.2]
  generalize hb : Shape.mk (count + 1) (.operator op.1 :: waiting) = before at hs
  cases hs with
  | operand operand' => exact absurd (List.cons.inj hp).1.symm (operand'.token_ne_operator .pow)
  | leftParen => cases hp
  | rightParen => cases hp
  | power exponents hne hn hs =>
      cases hb
      obtain ⟨left, hl, rfl⟩ := hs.eq_of_product
      obtain rfl : count = left + 1 := Nat.succ.inj hl
      exact .covered ((h.bound hop operand).powers exponents)
  | @hanging exponents count' _ _ hs =>
      obtain ⟨hv, rfl⟩ := Shape.mk.inj hb
      obtain ⟨left, hl, rfl⟩ := hs.eq_of_product
      obtain rfl : count = left + 2 := by omega
      rw [← List.append_assoc]
      exact .hung ((h.bound hop operand).powers exponents)
  | product op' => exact absurd (Token.operator.inj (List.cons.inj hp).1).symm op'.ne_pow
  | productWaits op' => exact absurd (Token.operator.inj (List.cons.inj hp).1).symm op'.ne_pow
  | sum op' => exact absurd (Token.operator.inj (List.cons.inj hp).1).symm op'.ne_pow

/-- No step reads two carets that follow each other. -/
theorem Shape.Step.ne_stuck (hs : Shape.Step piece rest before after) {tokens : List Token} :
    piece ++ rest ≠ .operator .pow :: .operator .pow :: tokens := by
  intro hp
  cases hs with
  | operand operand => exact absurd (List.cons.inj hp).1 (operand.token_ne_operator .pow)
  | leftParen => cases hp
  | rightParen => cases hp
  | power exponents hne hn hs =>
      obtain ⟨exponent, exponents, rfl⟩ := List.exists_cons_of_ne_nil hne
      exact absurd (List.cons.inj (List.cons.inj hp).2).1 (exponent.token_ne_operator .pow)
  | hanging exponents hs =>
      cases exponents with
      | nil => cases hp
      | cons exponent exponents =>
          exact absurd (List.cons.inj (List.cons.inj hp).2).1 (exponent.token_ne_operator .pow)
  | product op => exact absurd (Token.operator.inj (List.cons.inj hp).1) op.ne_pow
  | productWaits op => exact absurd (Token.operator.inj (List.cons.inj hp).1) op.ne_pow
  | sum op => exact absurd (Token.operator.inj (List.cons.inj hp).1) op.ne_pow

theorem Shape.Step.piece_ne_nil (hs : Shape.Step piece rest before after) : piece ≠ [] := by
  cases hs with
  | power exponents hne =>
      obtain ⟨exponent, exponents, rfl⟩ := List.exists_cons_of_ne_nil hne
      nofun
  | hanging exponents => exact List.append_ne_nil_of_right_ne_nil _ (List.cons_ne_nil _ _)
  | _ => nofun

/-- One step keeps what holds between steps. -/
theorem Reached.step {tokens : List Token} (h : Reached done tokens before)
    (hp : tokens = piece ++ rest) (hs : Shape.Step piece rest before after) :
    Reached (done ++ piece) rest after := by
  cases h with
  | covered h => exact h.step hs
  | product op h hm => exact h.step_product op (hp ▸ hm) hs
  | productOperand op operand h => exact h.step_productOperand op operand hp hs
  | hung => exact absurd (List.nil_eq_append_iff.mp hp).1 hs.piece_ne_nil
  | stuck => exact absurd hp.symm hs.ne_stuck
  | doomed h => exact .doomed (h.step hs)

theorem Reached.steps (hs : Shape.Steps piece rest before after)
    (h : Reached done (piece ++ rest) before) : Reached (done ++ piece) rest after := by
  induction hs generalizing done with
  | nil => rwa [List.append_nil]
  | cons hf _ ih =>
      rw [List.append_assoc] at h
      rw [← List.append_assoc]
      exact ih (h.step rfl hf)

end Steps

theorem Covered.supplied {done : List Token} {count : Nat} {signs : List SumOperator}
    (h : Covered done ⟨count, waitingSums signs⟩) : Supplied 0 done count signs.length := by
  generalize hw : waitingSums signs = waiting at h
  have hg : .group ∉ waiting := hw ▸ group_not_mem_sums signs
  cases h with
  | @intro front tokens before _ signs' inner ho h =>
      cases ho with
      | line =>
          have hl := congrArg List.length hw
          rw [List.append_nil, waitingSums, waitingSums, List.length_map, List.length_map] at hl
          rwa [hl]
      | group => simp at hg
      | productGroup => simp at hg

/-- At the end of the line a sum finds one value only if all that was read is supplied. -/
theorem Reached.solvable {tokens : List Token} {signs : List SumOperator}
    (h : Reached tokens [] ⟨signs.length + 1, waitingSums signs⟩) : Solvable tokens := by
  generalize hshape : Shape.mk (signs.length + 1) (waitingSums signs) = shape at h
  generalize hrest : ([] : List Token) = rest at h
  cases h with
  | covered h =>
      subst hshape
      exact ⟨signs.length, .inl h.supplied⟩
  | product op h hm =>
      subst hrest
      cases hm
  | productOperand => cases hrest
  | hung h =>
      obtain ⟨hv, rfl⟩ := Shape.mk.inj hshape
      obtain rfl := Nat.succ.inj hv
      exact ⟨signs.length, .inr ⟨_, rfl, h.supplied⟩⟩
  | stuck => cases hrest
  | doomed h =>
      subst hshape
      have hs : Doomed (waitingSums signs ++ []) := by rwa [List.append_nil]
      cases hs.of_sums quiet_nil

/-- The lists that leave one value when they are summed are the solvable ones. -/
theorem solvable_iff_steps {tokens : List Token} :
    Solvable tokens ↔ ∃ signs : List SumOperator,
      Shape.Steps tokens [] ⟨0, []⟩ ⟨signs.length + 1, waitingSums signs⟩ := by
  constructor
  · exact Solvable.exists_steps
  · rintro ⟨signs, hs⟩
    have hr : Reached ([] ++ tokens) [] ⟨signs.length + 1, waitingSums signs⟩ :=
      Reached.steps hs (.covered Opened.line.covered)
    exact hr.solvable

/-- An expression has a value exactly when its names may be read and it is solvable. -/
theorem Run.expression_ok_iff_solvable {policy : NamePolicy} {start : Nat} {tokens : List Token}
    {vars : Variables} {trace : Trace} :
    (∃ total final, (expression policy start tokens).run ⟨.empty, .empty, vars, trace⟩ =
        .ok total final) ↔ AllReadable policy vars tokens ∧ Solvable tokens := by
  rw [expression_ok_iff_steps, solvable_iff_steps]

theorem Solvable.scanned_lineTokens {tokens : List Token} (h : Solvable tokens)
    (target : Option String) : tokens ≠ [] ∧ scanned (lineTokens target tokens) = tokens := by
  obtain ⟨signs, hs⟩ := h.exists_steps
  obtain ⟨hsurplus, _, ha⟩ := balanced_of_steps hs
  have hne : tokens ≠ [] := by
    rintro rfl
    cases hsurplus
  exact ⟨hne, Reckoner.scanned_lineTokens hne ha⟩

/-- A line has a value exactly when its scanned tokens are solvable and none of
their names is refused. Such a line is infix exactly when operands and operators
take turns in it: what is not infix is not always refused. -/
theorem evaluate_ok_iff_solvable (policy : NamePolicy) (tokens : List Token) (vars : Variables)
    (trace : Trace) :
    ((∃ evaluation, (evaluate policy tokens vars trace).result = .ok evaluation) ↔
      LineOf Solvable tokens ∧
        (policy = .refuse → ∀ name ∈ names (scanned tokens), (vars.value? name).isSome)) ∧
    ∀ evaluation, (evaluate policy tokens vars trace).result = .ok evaluation →
      (LineOf Infix tokens ↔ Alternates .value (scanned tokens)) := by
  constructor
  · constructor
    · rintro ⟨evaluation, h⟩
      obtain ⟨target, final, _, ht, h⟩ := expression_of_evaluate_ok h
      obtain ⟨hr, hs⟩ := Run.expression_ok_iff_solvable.mp ⟨_, _, h⟩
      exact ⟨⟨target, scanned tokens, hs, ht⟩, fun hp name hm => hr name hm hp⟩
    · rintro ⟨⟨target, body, hs, rfl⟩, hr⟩
      obtain ⟨hne, hb⟩ := hs.scanned_lineTokens target
      rw [hb] at hr
      have hx : ∃ total final, (Run.expression policy (offset target) body).run
          ⟨.empty, .empty, vars, trace⟩ = .ok total final :=
        Run.expression_ok_iff_solvable.mpr ⟨fun name hm hp => hr hp name hm, hs⟩
      obtain ⟨total, final, h⟩ := hx
      rw [evaluate_lineTokens policy vars trace hne hb]
      exact ⟨⟨total, target⟩, conclude_eq_ok_iff.mpr ⟨final, h, rfl⟩⟩
  · intro evaluation h
    obtain ⟨target, final, _, ht, h⟩ := expression_of_evaluate_ok h
    obtain ⟨_, signs, hs⟩ := Run.expression_ok_iff_steps.mp ⟨_, _, h⟩
    obtain ⟨_, hbalanced, _⟩ := balanced_of_steps hs
    constructor
    · rintro ⟨target', body, ⟨e, rfl⟩, rfl⟩
      rw [e.scanned_lineTokens]
      have ha := e.alternates .nil
      rwa [List.append_nil] at ha
    · intro ha
      exact ⟨target, scanned tokens, ha.exists_expr [] nofun .nil hbalanced, ht⟩

/-- The operator at the end takes both numbers. -/
example : (evaluate .declare [.number 2, .number 3, .operator .add] ⟨[]⟩ (.start false)).result =
    .ok ⟨5, none⟩ := by decide +kernel

end Reckoner
