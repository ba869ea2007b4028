import Reckoner.Proofs.Evaluation.Counts
import Reckoner.Proofs.Evaluation.Faults
import Reckoner.Proofs.Evaluation.Success

/-! # The account of the stacks

Whatever the tokens are, the stacks hold as many more values than operators as
operands have been read more than operators, and as many groups as parentheses
are open. Every step keeps this account, in each of the ways it pushes and pops. -/

namespace Reckoner

def Waiting.isOperator : Waiting → Bool
  | .operator _ => true
  | .group => false

/-- Values less waiting operators. -/
def Shape.surplus (shape : Shape) : Int :=
  shape.values - shape.waiting.countP Waiting.isOperator

/-- Waiting groups. -/
def Shape.depth (shape : Shape) : Int := shape.waiting.count .group

namespace Shape

variable {piece rest : List Token} {before after : Shape} {count : Nat} {waiting : List Waiting}

@[simp] theorem surplus_group : surplus ⟨count, .group :: waiting⟩ = surplus ⟨count, waiting⟩ := rfl

@[simp] theorem surplus_operator (op : Operator) :
    surplus ⟨count, .operator op :: waiting⟩ = surplus ⟨count, waiting⟩ - 1 := by
  simp only [surplus, List.countP_cons, Waiting.isOperator, if_true]
  omega

@[simp] theorem surplus_succ : surplus ⟨count + 1, waiting⟩ = surplus ⟨count, waiting⟩ + 1 := by
  simp only [surplus]
  omega

@[simp] theorem depth_group :
    depth ⟨count, .group :: waiting⟩ = depth ⟨count, waiting⟩ + 1 := by
  simp [depth]

@[simp] theorem depth_operator (op : Operator) :
    depth ⟨count, .operator op :: waiting⟩ = depth ⟨count, waiting⟩ := by
  simp [depth]

variable (count waiting) in
theorem surplus_sums (signs : List SumOperator) :
    surplus ⟨count + signs.length, waitingSums signs ++ waiting⟩ = surplus ⟨count, waiting⟩ := by
  induction signs with
  | nil => rfl
  | cons op signs ih =>
      rw [List.length_cons, ← Nat.add_assoc, waitingSums_cons, List.cons_append, surplus_operator,
        surplus_succ, ih]
      omega

variable (count waiting) in
theorem depth_sums (signs : List SumOperator) :
    depth ⟨count, waitingSums signs ++ waiting⟩ = depth ⟨count, waiting⟩ := by
  induction signs with
  | nil => rfl
  | cons op signs ih => rw [waitingSums_cons, List.cons_append, depth_operator, ih]

/-- The shape of a line that can be summed holds one value of its own. -/
theorem surplus_line (signs : List SumOperator) :
    surplus ⟨signs.length + 1, waitingSums signs⟩ = 1 := by
  have hs := surplus_sums 1 [] signs
  rwa [Nat.add_comm, List.append_nil] at hs

theorem depth_line (signs : List SumOperator) :
    depth ⟨signs.length + 1, waitingSums signs⟩ = 0 := by
  have hd := depth_sums (signs.length + 1) [] signs
  rwa [List.append_nil] at hd

theorem Settles.surplus_eq (h : Settles before after) : after.surplus = before.surplus := by
  cases h with
  | quiet => rfl
  | product op =>
      rw [surplus_operator, surplus_succ, surplus_succ, surplus_succ]
      omega

theorem Settles.depth_eq (h : Settles before after) : after.depth = before.depth := by
  cases h with
  | quiet => rfl
  | product op => exact (depth_operator op.1).symm

/-- A step changes the surplus on the stacks by that of the tokens it reads. -/
theorem Step.surplus_eq (h : Step piece rest before after) :
    after.surplus = before.surplus + Reckoner.surplus piece := by
  cases h with
  | operand operand => rw [surplus_operand, surplus_succ]
  | leftParen => simp
  | rightParen signs hb hs =>
      rw [hb, surplus_sums, surplus_group, hs.surplus_eq]
      simp
  | power exponents _ _ hs => rw [hs.surplus_eq, surplus_powerTokens, Int.add_zero]
  | hanging exponents hs =>
      rw [hs.surplus_eq, surplus_append, surplus_powerTokens, Reckoner.surplus_operator,
        surplus_succ, surplus_succ, surplus_succ]
      omega
  | product op operand =>
      have hp : ([.operator op.1, operand.token] : List Token) =
          [.operator op.1] ++ [operand.token] := rfl
      rw [hp, surplus_append, Reckoner.surplus_operator, surplus_operand]
      omega
  | productWaits op _ => rw [surplus_operator, Reckoner.surplus_operator, Int.sub_eq_add_neg]
  | sum op => rw [surplus_operator, Reckoner.surplus_operator, Int.sub_eq_add_neg]

/-- A step opens and closes as many groups as the tokens it reads. -/
theorem Step.depth_eq (h : Step piece rest before after) :
    after.depth = before.depth + Reckoner.depth piece := by
  cases h with
  | operand operand =>
      rw [depth_operand, Int.add_zero]
      rfl
  | leftParen => simp
  | rightParen signs hb hs =>
      rw [hb, depth_sums, depth_group, hs.depth_eq, depth_rightParen, Int.add_neg_cancel_right]
      rfl
  | power exponents _ _ hs =>
      rw [hs.depth_eq, depth_powerTokens, Int.add_zero]
  | hanging exponents hs =>
      rw [hs.depth_eq, depth_append, depth_powerTokens, Reckoner.depth_operator]
      rfl
  | product op operand =>
      have hp : ([.operator op.1, operand.token] : List Token) =
          [.operator op.1] ++ [operand.token] := rfl
      rw [hp, depth_append, Reckoner.depth_operator, depth_operand]
      rfl
  | productWaits op _ => rw [depth_operator, Reckoner.depth_operator, Int.add_zero]
  | sum op => rw [depth_operator, Reckoner.depth_operator, Int.add_zero]

/-- The tokens of a step are operands, operators and parentheses. -/
theorem Step.forall_mem {p : Token → Prop} (ho : ∀ operand : Operand, p operand.token)
    (hs : ∀ op, p (.operator op)) (hl : p .leftParen) (hr : piece = [.rightParen] → p .rightParen)
    (h : Step piece rest before after) : ∀ token ∈ piece, p token := by
  cases h with
  | operand operand => exact List.forall_mem_singleton.mpr (ho operand)
  | leftParen => exact List.forall_mem_singleton.mpr hl
  | rightParen => exact List.forall_mem_singleton.mpr (hr rfl)
  | power exponents => exact forall_mem_powerTokens ho (hs .pow) exponents
  | hanging exponents =>
      exact List.forall_mem_append.mpr ⟨forall_mem_powerTokens ho (hs .pow) exponents,
        List.forall_mem_singleton.mpr (hs .pow)⟩
  | product op operand =>
      exact List.forall_mem_cons.mpr ⟨hs op.1, List.forall_mem_singleton.mpr (ho operand)⟩
  | productWaits op => exact List.forall_mem_singleton.mpr (hs op.1)
  | sum op => exact List.forall_mem_singleton.mpr (hs op.1)

theorem Step.assign_not_mem (h : Step piece rest before after) : .assign ∉ piece := fun hm =>
  h.forall_mem (p := (· ≠ .assign)) (fun operand => by cases operand <;> nofun) (fun _ => nofun)
    nofun (fun _ => nofun) _ hm rfl

/-- Within a step no more groups are closed than wait. -/
theorem Step.depth_prefix_nonneg (h : Step piece rest before after) {front : List Token}
    (hf : front <+: piece) : 0 ≤ before.depth + Reckoner.depth front := by
  have hb : 0 ≤ before.depth := Int.natCast_nonneg _
  by_cases hp : piece = [.rightParen]
  · subst hp
    rcases List.prefix_cons_iff.mp hf with rfl | ⟨tail, rfl, ht⟩
    · simpa using hb
    · obtain rfl : tail = [] := List.prefix_nil.mp ht
      have ha : 0 ≤ after.depth := Int.natCast_nonneg _
      rwa [h.depth_eq] at ha
  · have hr : .rightParen ∉ front := fun hm =>
      h.forall_mem (p := (· ≠ .rightParen)) (fun operand => by cases operand <;> nofun)
        (fun _ => nofun) nofun (fun he => absurd he hp) _ (hf.subset hm) rfl
    have hd := depth_nonneg hr
    omega

end Shape

/-- What is known of the tokens read and of the stacks at any point between two steps. -/
structure Accounted (done : List Token) (shape : Shape) : Prop where
  surplus_eq : shape.surplus = surplus done
  depth_eq : shape.depth = depth done
  powerless : Powerless shape.waiting
  depth_nonneg : ∀ front, front <+: done → 0 ≤ depth front
  assign_not_mem : .assign ∉ done

theorem accounted_nil : Accounted [] ⟨0, []⟩ where
  surplus_eq := rfl
  depth_eq := rfl
  powerless := nofun
  depth_nonneg := by
    intro front hf
    obtain rfl : front = [] := List.prefix_nil.mp hf
    exact Int.le_refl 0
  assign_not_mem := nofun

/-- One step keeps the account. -/
theorem Accounted.step {done piece rest : List Token} {before after : Shape}
    (ha : Accounted done before) (hs : Shape.Step piece rest before after) :
    Accounted (done ++ piece) after where
  surplus_eq := by rw [hs.surplus_eq, ha.surplus_eq, surplus_append]
  depth_eq := by rw [hs.depth_eq, ha.depth_eq, depth_append]
  powerless := hs.powerless ha.powerless
  depth_nonneg := by
    intro front hf
    rcases List.prefix_or_prefix_of_prefix hf (List.prefix_append done piece) with hd | ⟨front, rfl⟩
    · exact ha.depth_nonneg front hd
    · have hd := hs.depth_prefix_nonneg ((List.prefix_append_right_inj done).mp hf)
      rwa [depth_append, ← ha.depth_eq]
  assign_not_mem := by
    rw [List.mem_append, not_or]
    exact ⟨ha.assign_not_mem, hs.assign_not_mem⟩

/-- Any number of steps keeps the account. -/
theorem Accounted.steps {done piece rest : List Token} {before after : Shape}
    (ha : Accounted done before) (hs : Shape.Steps piece rest before after) :
    Accounted (done ++ piece) after := by
  induction hs generalizing done with
  | nil => rwa [List.append_nil]
  | cons hf _ ih =>
      rw [← List.append_assoc]
      exact ih (ha.step hf)

/-- What can be summed to one value has one operand more than operators, and
its parentheses match. -/
theorem balanced_of_steps {tokens : List Token} {signs : List SumOperator}
    (hs : Shape.Steps tokens [] ⟨0, []⟩ ⟨signs.length + 1, waitingSums signs⟩) :
    surplus tokens = 1 ∧ Balanced tokens ∧ .assign ∉ tokens := by
  have ha : Accounted tokens ⟨signs.length + 1, waitingSums signs⟩ := accounted_nil.steps hs
  have hsurplus : surplus tokens = 1 := by
    calc
      surplus tokens = Shape.surplus ⟨signs.length + 1, waitingSums signs⟩ := ha.surplus_eq.symm
      _ = 1 := Shape.surplus_line signs
  have hdepth : depth tokens = 0 := by
    calc
      depth tokens = Shape.depth ⟨signs.length + 1, waitingSums signs⟩ := ha.depth_eq.symm
      _ = 0 := Shape.depth_line signs
  refine ⟨hsurplus, ⟨?_, ?_⟩, ha.assign_not_mem⟩
  · intro front hf
    rw [Int.zero_add]
    exact ha.depth_nonneg front hf
  · rw [Int.zero_add]
    exact hdepth

variable {policy : NamePolicy} {start : Nat}

/-- The account of every point of an evaluation. -/
theorem accounted_of_leads {tokens : List Token} {vars : Variables} {trace : Trace}
    {reading : Reading}
    (hl : Reading.Leads policy start ⟨[], tokens, ⟨.empty, .empty, vars, trace⟩⟩ reading) :
    Accounted reading.done reading.machine.shape := by
  obtain ⟨piece, hd, hs, _⟩ := hl.exists_steps nofun
  rw [hd]
  exact accounted_nil.steps hs

/-- A sum only meets products that it cannot add. -/
theorem Powerless.precedence_eq {waiting : List Waiting} {op : Operator} (hw : Powerless waiting)
    (hm : .operator op ∈ waiting) (hs : op.precedence ≠ .sum) : op.precedence = .product := by
  cases op with
  | mul | div | rem => rfl
  | add | sub => exact absurd rfl hs
  | pow => exact absurd hm hw

theorem Powerless.precedence_of_gather {waiting : List Waiting} {stop : SumEnd}
    {values : List Float} {op : Operator} (hw : Powerless waiting)
    (hg : gather stop [] values waiting = .error (.danglingOperator op)) :
    op.precedence = .product := by
  have hkind : ∀ op', EvalError.danglingOperator op = .danglingOperator op' →
      op'.precedence = .product := by
    refine kind_of_gather_error
      (fun fault => ∀ op', fault = .danglingOperator op' → op'.precedence = .product)
      nofun nofun nofun ?_ hg
    rintro op hm hs _ ⟨⟩
    exact hw.precedence_eq hm hs
  exact hkind op rfl

namespace Run

variable {position : Nat} {token : Token} {tokens : List Token} {machine final : Machine}
variable {op : Operator}

theorem precedence_of_takeSum_danglingOperator {stop : SumEnd}
    (hw : Powerless machine.waiting.items)
    (h : (takeSum stop).run machine = .error (.danglingOperator op) final) :
    op.precedence = .product :=
  hw.precedence_of_gather (gather_of_takeSum_error h)

theorem precedence_of_step_danglingOperator (hw : Powerless machine.waiting.items)
    (h : (step policy position token tokens).run machine = .error (.danglingOperator op) final) :
    op.precedence = .product := by
  have hkind := kind_of_step_error (· ≠ .danglingOperator op) (by simp) (by simp)
    (by simp) (by simp) h
  rcases hkind with hg | hne
  · exact hw.precedence_of_gather hg
  · exact absurd rfl hne

end Run

/-- The stacks keep their account at every point of every evaluation, no power
waits there, and only products are ever left dangling. A line that has a value
has one operand more than operators, closes each parenthesis behind its opening
and scans no assignment sign. -/
theorem evaluate_accounted (policy : NamePolicy) (tokens : List Token) (vars : Variables)
    (trace : Trace) :
    (∀ start reading,
      Reading.Leads policy start ⟨[], scanned tokens, ⟨.empty, .empty, vars, trace⟩⟩ reading →
        ((reading.machine.values.size : Int) -
            reading.machine.waiting.items.countP Waiting.isOperator =
          reading.done.countP Token.isOperand - reading.done.countP Token.isOperator) ∧
        ((reading.machine.waiting.items.count .group : Int) =
          reading.done.count .leftParen - reading.done.count .rightParen) ∧
        .operator .pow ∉ reading.machine.waiting.items ∧
        ∀ op : Operator, op.precedence = .product →
          (reading.machine.waiting.peek?.getD (.operator .add)).allows op = true) ∧
    (∀ op, (evaluate policy tokens vars trace).result = .error (.danglingOperator op) →
      op.precedence = .product) ∧
    (∀ evaluation, (evaluate policy tokens vars trace).result = .ok evaluation →
      (scanned tokens).countP Token.isOperand = (scanned tokens).countP Token.isOperator + 1 ∧
      (∀ front, front <+: scanned tokens → front.count .rightParen ≤ front.count .leftParen) ∧
      (scanned tokens).count .leftParen = (scanned tokens).count .rightParen ∧
      .assign ∉ scanned tokens) := by
  refine ⟨?_, ?_, ?_⟩
  · intro start reading hl
    have ha := accounted_of_leads hl
    exact ⟨ha.surplus_eq, ha.depth_eq, ha.powerless,
      fun op hop => Waiting.allows_product hop ha.powerless.head?_ne_pow⟩
  · intro op h
    rcases expression_of_evaluate_error h with he | he | ⟨target, final, h⟩
    · cases he
    · cases he
    · rcases Run.expression_eq_error h with
        ⟨reading, token, tokens', hl, _, hs⟩ | ⟨middle, hl, hs⟩ | he
      · exact Run.precedence_of_step_danglingOperator (accounted_of_leads hl).powerless hs
      · exact Run.precedence_of_takeSum_danglingOperator (accounted_of_leads hl).powerless hs
      · cases he
  · intro evaluation h
    obtain ⟨target, final, _, _, h⟩ := expression_of_evaluate_ok h
    obtain ⟨_, signs, hs⟩ := Run.expression_ok_iff_steps.mp ⟨_, _, h⟩
    obtain ⟨hsurplus, hbalanced, hassign⟩ := balanced_of_steps hs
    refine ⟨?_, ?_, ?_, hassign⟩
    · simp only [surplus] at hsurplus
      omega
    · intro front hf
      have hn := hbalanced.nonneg front hf
      simp only [depth] at hn
      omega
    · have hz := hbalanced.eq_zero
      simp only [depth] at hz
      omega

end Reckoner
