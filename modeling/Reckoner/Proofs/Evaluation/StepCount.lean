import Reckoner.Proofs.Evaluation.Accounting

/-! # How many steps an evaluation records

A detailed trace of a successful evaluation has one step for each product, each power and each
group, one for the sum of the line if it has two terms, and one for an assignment. The last
step holds the value of the line. -/

namespace Reckoner

def Token.isSum : Token → Bool
  | .operator op => !op.isApplied
  | _ => false

def Waiting.isSum : Waiting → Bool
  | .operator op => !op.isApplied
  | .group => false

/-- An addition or a subtraction stands outside all parentheses. -/
def OuterSum (tokens : List Token) : Prop :=
  ∃ front op rest, tokens = front ++ .operator op :: rest ∧ op.precedence = .sum ∧ depth front = 0

/-- The same, when some parentheses are open in front of the tokens. -/
def outerSum (opened : Int) : List Token → Bool
  | [] => false
  | token :: rest => (token.isSum && decide (opened = 0)) || outerSum (opened + depth [token]) rest

theorem outerSum_append (opened : Int) (first second : List Token) :
    outerSum opened (first ++ second) =
      (outerSum opened first || outerSum (opened + depth first) second) := by
  induction first generalizing opened with
  | nil => rw [depth_nil, Int.add_zero]; rfl
  | cons token first ih =>
      have hd : depth (token :: first) = depth [token] + depth first := depth_append [token] first
      rw [List.cons_append, outerSum, outerSum, ih, hd, Int.add_assoc, Bool.or_assoc]

theorem outerSum_of_forall {tokens : List Token} (h : ∀ token ∈ tokens, token.isSum = false)
    (opened : Int) : outerSum opened tokens = false := by
  induction tokens generalizing opened with
  | nil => rfl
  | cons token rest ih =>
      obtain ⟨ht, hr⟩ := List.forall_mem_cons.mp h
      rw [outerSum, ht, Bool.false_and, Bool.false_or, ih hr]

theorem exists_of_outerSum {opened : Int} {tokens : List Token} (h : outerSum opened tokens = true) :
    ∃ front op rest, tokens = front ++ .operator op :: rest ∧ op.precedence = .sum ∧
      opened + depth front = 0 := by
  induction tokens generalizing opened with
  | nil => cases h
  | cons token rest ih =>
      rw [outerSum, Bool.or_eq_true, Bool.and_eq_true, decide_eq_true_eq] at h
      rcases h with ⟨hsum, rfl⟩ | h
      · cases token with
        | operator op =>
            refine ⟨[], op, rest, rfl, ?_, rfl⟩
            simpa [Token.isSum, Operator.isApplied] using hsum
        | _ => cases hsum
      · obtain ⟨front, op, rest, rfl, hop, hd⟩ := ih h
        refine ⟨token :: front, op, rest, rfl, hop, ?_⟩
        have hdepth : depth (token :: front) = depth [token] + depth front :=
          depth_append [token] front
        rw [hdepth, ← Int.add_assoc, hd]

theorem outerSum_iff {tokens : List Token} : outerSum 0 tokens = true ↔ OuterSum tokens := by
  constructor
  · intro h
    obtain ⟨front, op, rest, ht, hop, hd⟩ := exists_of_outerSum h
    exact ⟨front, op, rest, ht, hop, by rwa [Int.zero_add] at hd⟩
  · rintro ⟨front, op, rest, rfl, hop, hd⟩
    simp [outerSum_append, outerSum, Token.isSum, Operator.isApplied, hop, hd]

instance : DecidablePred OuterSum := fun _ => decidable_of_iff _ outerSum_iff

@[simp] theorem isSum_operand (operand : Operand) : operand.token.isSum = false := by
  cases operand <;> rfl

theorem outerSum_operand (operand : Operand) (opened : Int) :
    outerSum opened [operand.token] = false :=
  outerSum_of_forall (List.forall_mem_singleton.mpr (isSum_operand operand)) opened

theorem outerSum_powerTokens (exponents : List Operand) (opened : Int) :
    outerSum opened (powerTokens exponents) = false :=
  outerSum_of_forall (forall_mem_powerTokens (p := (Token.isSum · = false)) isSum_operand rfl
    exponents) opened

theorem outerSum_product (op : ProductOperator) {tokens : List Token} (opened : Int) :
    outerSum opened (.operator op.1 :: tokens) = outerSum opened tokens := by
  rw [outerSum, Token.isSum, op.isApplied, depth_operator, Int.add_zero]
  rfl

/-- A sum waits below all groups. -/
def outerWaits : List Waiting → Bool
  | [] => false
  | entry :: below => (entry.isSum && decide (.group ∉ below)) || outerWaits below

@[simp] theorem outerWaits_group (waiting : List Waiting) :
    outerWaits (.group :: waiting) = outerWaits waiting := rfl

@[simp] theorem outerWaits_product (op : ProductOperator) (waiting : List Waiting) :
    outerWaits (.operator op :: waiting) = outerWaits waiting := by
  rw [outerWaits, Waiting.isSum, op.isApplied]
  rfl

/-- Sums above a group do not count. -/
theorem outerWaits_sums_group (signs : List SumOperator) (waiting : List Waiting) :
    outerWaits (waitingSums signs ++ .group :: waiting) = outerWaits waiting := by
  induction signs with
  | nil => rfl
  | cons op signs ih =>
      rw [waitingSums_cons, List.cons_append, outerWaits, ih]
      simp

/-- Without a group all sums count. -/
theorem outerWaits_sums (signs : List SumOperator) :
    outerWaits (waitingSums signs) = !signs.isEmpty := by
  cases signs with
  | nil => rfl
  | cons op signs =>
      rw [waitingSums_cons, outerWaits, Waiting.isSum, op.isApplied,
        decide_eq_true (group_not_mem_sums signs)]
      rfl

namespace Shape

variable {piece rest : List Token} {before after : Shape}

theorem Settles.outerWaits_eq (h : Settles before after) :
    outerWaits after.waiting = outerWaits before.waiting := by
  cases h with
  | quiet => rfl
  | product op => exact (outerWaits_product op _).symm

theorem depth_eq_zero_iff {shape : Shape} : shape.depth = 0 ↔ .group ∉ shape.waiting := by
  rw [depth, Int.natCast_eq_zero, List.count_eq_zero]

/-- A step leaves a sum waiting below all groups if there was one or if it reads one there. -/
theorem Step.outerWaits_eq (h : Step piece rest before after) :
    outerWaits after.waiting = (outerWaits before.waiting || outerSum before.depth piece) := by
  cases h with
  | operand operand => rw [outerSum_operand, Bool.or_false]
  | leftParen => exact (Bool.or_false _).symm
  | rightParen signs hb hs =>
      rw [hb, outerWaits_sums_group, hs.outerWaits_eq]
      exact (Bool.or_false _).symm
  | power exponents _ _ hs => rw [hs.outerWaits_eq, outerSum_powerTokens, Bool.or_false]
  | hanging exponents hs =>
      rw [hs.outerWaits_eq, outerSum_append, outerSum_powerTokens]
      exact (Bool.or_false _).symm
  | product op operand => rw [outerSum_product, outerSum_operand, Bool.or_false]
  | productWaits op _ =>
      rw [outerWaits_product, outerSum_product]
      exact (Bool.or_false _).symm
  | @sum op _ count waiting =>
      have hdepth : decide (.group ∉ waiting) = decide (depth ⟨count, waiting⟩ = 0) := by
        rw [decide_eq_decide, depth_eq_zero_iff]
      rw [outerWaits, outerSum, outerSum, Waiting.isSum, Token.isSum, hdepth, Bool.or_false,
        Bool.or_comm]

theorem Steps.outerWaits_eq (h : Steps piece rest before after) :
    outerWaits after.waiting = (outerWaits before.waiting || outerSum before.depth piece) := by
  induction h with
  | nil => exact (Bool.or_false _).symm
  | cons hf _ ih => rw [ih, hf.outerWaits_eq, hf.depth_eq, outerSum_append, Bool.or_assoc]

end Shape

/-! ## The steps of an expression -/

variable {policy : NamePolicy} {start : Nat} {tokens : List Token} {vars : Variables}
variable {trace : Trace}

/-- What leads from one reading to another records the steps that its tokens call for. -/
theorem Reading.Leads.exists_recorded {first second : Reading} (h : Leads policy start first second)
    (hw : Powerless first.machine.waiting.items) :
    ∃ piece steps, second.done = first.done ++ piece ∧
      Recorded steps (applications piece) first.machine second.machine := by
  induction h with
  | refl => exact ⟨[], [], (List.append_nil _).symm, .nothing rfl rfl (List.Subset.refl _)⟩
  | @tail middle last hl hn ih =>
      obtain ⟨front, earlier, hd, hr⟩ := ih
      obtain ⟨_, _, hs, _⟩ := Leads.exists_steps hl hw
      obtain ⟨piece, hd', hs'⟩ := hn.exists_stepOf (hs.powerless hw)
      obtain ⟨steps, hr'⟩ := hs'.recorded
      refine ⟨front ++ piece, earlier ++ steps, by rw [hd', hd, List.append_assoc], ?_⟩
      rw [applications_append]
      exact hr.trans hr'

/-- The steps of an expression end with its sum if that has two terms. Otherwise the last one
holds the only term. -/
theorem Run.expression_recorded {total : Float} {final : Machine}
    (h : (expression policy start tokens).run ⟨.empty, .empty, vars, trace⟩ = .ok total final) :
    ∃ (steps : List Step) (sum : Sum), total = sum.total ∧
      final.trace = trace.extend (steps ++ sum.stepsIn .line) ∧
      steps.length = applications tokens ∧ (OuterSum tokens ↔ sum.rest ≠ []) ∧
      (sum.rest = [] → Kept steps [sum.first]) := by
  obtain ⟨middle, hl, hsum, he⟩ := expression_eq_ok_iff.mp h
  obtain ⟨terms, first, hv, hw, htotal, htrace⟩ := terms_of_takeSum_line hsum he
  obtain ⟨piece, steps, hd, hr⟩ := hl.exists_recorded List.not_mem_nil
  obtain rfl : tokens = piece := hd
  have houter : outerWaits middle.waiting.items = outerSum 0 tokens := by
    obtain ⟨piece, hd, hs, -⟩ := hl.exists_steps List.not_mem_nil
    obtain rfl : tokens = piece := hd
    exact hs.outerWaits_eq
  rw [hw, terms.waiting_eq_waitingSums, outerWaits_sums] at houter
  refine ⟨steps, ⟨first, terms.signed⟩, htotal, ?_, ?_, ?_, ?_⟩
  · rw [htrace, hr.trace_eq, Trace.extend_append]
  · have hdue := hr.due_eq
    have hmiddle : middle.due = 0 := by rw [Machine.due, hw, terms.countP_waiting]
    rw [hmiddle] at hdue
    exact hdue.trans (Nat.zero_add _)
  · rw [← outerSum_iff, ← houter]
    simp [Terms.signs, Terms.signed]
  · intro hnil
    have hkept := hr.kept [] (kept_nil _)
    obtain rfl : terms = [] := by simpa [Terms.signed] using hnil
    rwa [hv] at hkept

/-! ## The steps of a line -/

theorem applications_lineTokens (target : Option String) (tokens : List Token) :
    applications (lineTokens target tokens) = applications tokens := by
  cases target <;> rfl

theorem outerSum_lineTokens (target : Option String) (tokens : List Token) :
    OuterSum (lineTokens target tokens) ↔ OuterSum tokens := by
  rw [← outerSum_iff, ← outerSum_iff]
  cases target <;> rfl

/-- The step of an assignment. -/
def assignStep (name : String) (value : Float) : Step :=
  ⟨name ++ " = " ++ Binary64.text value, value⟩

/-- A line with a value records the steps that its tokens call for, then its sum if that has two
terms, and then its assignment. -/
theorem exists_recorded_of_evaluate {evaluation : Evaluation}
    (h : (evaluate policy tokens vars trace).result = .ok evaluation) :
    ∃ (steps : List Step) (sum : Sum), evaluation.value = sum.total ∧
      (evaluate policy tokens vars trace).trace = trace.extend (steps ++ sum.stepsIn .line ++
        evaluation.assigned.toList.map (assignStep · evaluation.value)) ∧
      steps.length = applications tokens ∧ (OuterSum tokens ↔ sum.rest ≠ []) ∧
      (sum.rest = [] → Kept steps [sum.first]) := by
  obtain ⟨-, hs, final, he, hl⟩ := scanned_of_evaluate_ok h
  obtain ⟨steps, sum, hvalue, htrace, hlength, houter, hkept⟩ := Run.expression_recorded he
  rw [← applications_lineTokens evaluation.assigned, hs] at hlength
  rw [← outerSum_lineTokens evaluation.assigned, hs] at houter
  refine ⟨steps, sum, hvalue, ?_, hlength, houter, hkept⟩
  rw [hl, Trace.extend_append, ← htrace]
  cases evaluation.assigned with
  | none => exact (Trace.extend_nil _).symm
  | some name => rfl

theorem length_stepsIn_line (sum : Sum) :
    (sum.stepsIn .line).length = if sum.rest ≠ [] then 1 else 0 := by
  by_cases h : sum.rest = []
  · rw [stepsIn_line_of_nil h, if_neg (not_not.mpr h), List.length_nil]
  · rw [stepsIn_line_of_ne_nil h, if_pos h, List.length_singleton]

/-- A detailed trace records each application once, each group that is closed, the sum outside
all parentheses if there is one, and the assignment. Its last step holds the value of the line,
to which zero is added if no sum was taken outside parentheses. -/
theorem evaluate_recorded {evaluation : Evaluation}
    (h : (evaluate policy tokens vars (.start true)).result = .ok evaluation) :
    let steps := (evaluate policy tokens vars (.start true)).trace.steps
    (∀ name, evaluation.assigned = some name ↔
      ∃ next rest, tokens = .identifier name :: .assign :: next :: rest) ∧
    steps.length = tokens.countP Token.isApplied + tokens.count .rightParen +
      (if OuterSum tokens then 1 else 0) + (if evaluation.assigned.isSome then 1 else 0) ∧
    (∀ name, evaluation.assigned = some name →
      steps.getLast? = some ⟨name ++ " = " ++ Binary64.text evaluation.value, evaluation.value⟩) ∧
    (evaluation.assigned = none → OuterSum tokens →
      ∃ sum : Sum, sum.rest ≠ [] ∧ steps.getLast? = some ⟨sum.text, evaluation.value⟩) ∧
    (evaluation.assigned = none → ¬ OuterSum tokens →
      ∀ last ∈ steps.getLast?, evaluation.value = 0 + last.result) := by
  intro steps
  obtain ⟨inner, sum, hvalue, htrace, hlength, houter, hkept⟩ := exists_recorded_of_evaluate h
  have hsteps : steps = inner ++ sum.stepsIn .line ++
      evaluation.assigned.toList.map (assignStep · evaluation.value) :=
    congrArg Trace.steps htrace
  refine ⟨fun name => assigned_eq_some_iff h, ?_, ?_, ?_, ?_⟩
  · have hassigned : (evaluation.assigned.toList.map (assignStep · evaluation.value)).length =
        if evaluation.assigned.isSome then 1 else 0 := by
      cases evaluation.assigned <;> rfl
    rw [hsteps, List.length_append, List.length_append, hlength, length_stepsIn_line, hassigned,
      if_congr houter.symm rfl rfl, applications]
  · intro name hname
    rw [hsteps, hname]
    exact List.getLast?_concat
  · intro hnone hsum
    refine ⟨sum, houter.mp hsum, ?_⟩
    rw [hsteps, hnone, stepsIn_line_of_ne_nil (houter.mp hsum), hvalue, Option.toList_none,
      List.map_nil, List.append_nil]
    exact List.getLast?_concat
  · intro hnone hsum last hlast
    have hnil : sum.rest = [] := by simpa using mt houter.mpr hsum
    rw [hsteps, hnone, stepsIn_line_of_nil hnil, List.append_nil, Option.toList_none, List.map_nil,
      List.append_nil] at hlast
    have hfirst : last.result = sum.first := List.mem_singleton.mp (hkept hnil last hlast)
    rw [hvalue, Sum.total, hnil, hfirst]
    rfl

/-- The sum inside the group is the group's step. The product behind it is the last one. -/
theorem evaluate_recorded_product_group :
    let tokens : List Token :=
      [.number 2, .operator .mul, .leftParen, .number 3, .operator .add, .number 4, .rightParen]
    let outcome := evaluate .refuse tokens .initial (.start true)
    outcome.result = .ok ⟨14, none⟩ ∧ ¬ OuterSum tokens ∧ outcome.trace.steps.length = 2 ∧
      ∀ last ∈ outcome.trace.steps.getLast?, (14 : Float) = 0 + last.result := by
  intro tokens outcome
  have h : outcome.result = .ok ⟨14, none⟩ := by decide +kernel
  have hsum : ¬ OuterSum tokens := by decide
  obtain ⟨-, hlength, -, -, hlast⟩ := evaluate_recorded h
  refine ⟨h, hsum, hlength.trans ?_, hlast rfl hsum⟩
  rw [if_neg hsum]
  rfl

end Reckoner
