import Reckoner.Proofs.Evaluation.Counts
import Reckoner.Proofs.Evaluation.PowerChain
import Reckoner.Proofs.Evaluation.Sum

/-! # What operations record

Every product, every power and every group that is closed is one step. A product may be read
long before it is applied; while it waits its step is due. The result of the last step stays
on the stack until a sum takes it. -/

namespace Reckoner

/-- The operator is applied by itself. Additions and subtractions are taken together. -/
def Operator.isApplied (op : Operator) : Bool := op.precedence != .sum

def Token.isApplied : Token → Bool
  | .operator op => op.isApplied
  | _ => false

def Waiting.isApplied : Waiting → Bool
  | .operator op => op.isApplied
  | .group => false

@[simp] theorem SumOperator.isApplied (op : SumOperator) : op.1.isApplied = false := by
  rw [Operator.isApplied, op.2]
  rfl

@[simp] theorem ProductOperator.isApplied (op : ProductOperator) : op.1.isApplied = true := by
  rw [Operator.isApplied, op.2]
  rfl

/-- No step is due for the terms of a sum. -/
theorem Terms.countP_waiting (terms : Terms) : terms.waiting.countP Waiting.isApplied = 0 := by
  simp [waiting, List.countP_map, List.countP_eq_zero, Waiting.isApplied]

/-- The steps that some tokens call for. -/
def applications (tokens : List Token) : Nat :=
  tokens.countP Token.isApplied + tokens.count .rightParen

section Applications

@[simp] theorem applications_append (first second : List Token) :
    applications (first ++ second) = applications first + applications second := by
  simp only [applications, List.countP_append, List.count_append]
  omega

@[simp] theorem applications_operand (operand : Operand) : applications [operand.token] = 0 := by
  cases operand <;> rfl

@[simp] theorem applications_leftParen : applications [.leftParen] = 0 := rfl

@[simp] theorem applications_rightParen : applications [.rightParen] = 1 := rfl

@[simp] theorem applications_operator (op : Operator) :
    applications [.operator op] = op.isApplied.toNat := by
  cases op <;> rfl

@[simp] theorem applications_powerTokens (exponents : List Operand) :
    applications (powerTokens exponents) = exponents.length := by
  induction exponents with
  | nil => rfl
  | cons exponent exponents ih =>
      rw [powerTokens_eq_append, applications_append, applications_append, ih,
        applications_operator, applications_operand, List.length_cons, Nat.zero_add, Nat.add_comm]
      rfl

end Applications

/-- The steps that are still to be recorded for what waits. -/
def Machine.due (machine : Machine) : Nat := machine.waiting.items.countP Waiting.isApplied

/-- The result of the last step is one of the values. -/
def Kept (steps : List Step) (values : List Float) : Prop :=
  ∀ last ∈ steps.getLast?, last.result ∈ values

theorem kept_nil (values : List Float) : Kept [] values := nofun

theorem Kept.mono {steps : List Step} {values values' : List Float} (h : Kept steps values)
    (hv : values ⊆ values') : Kept steps values' := fun last hl => hv (h last hl)

theorem kept_append_singleton (steps : List Step) {step : Step} {values : List Float}
    (hv : step.result ∈ values) : Kept (steps ++ [step]) values := by
  intro last hl
  rw [List.getLast?_concat] at hl
  obtain rfl : step = last := Option.some.inj hl
  exact hv

/-- Between two machines some steps were recorded, of `count` that were called for. -/
structure Recorded (steps : List Step) (count : Nat) (before after : Machine) : Prop where
  trace_eq : after.trace = before.trace.extend steps
  due_eq : steps.length + after.due = before.due + count
  kept : ∀ earlier, Kept earlier before.values.items → Kept (earlier ++ steps) after.values.items

namespace Recorded

variable {first second steps : List Step} {step : Step} {count count' : Nat}
variable {before middle after : Machine}

theorem trans (hf : Recorded first count before middle)
    (hs : Recorded second count' middle after) :
    Recorded (first ++ second) (count + count') before after where
  trace_eq := by rw [hs.trace_eq, hf.trace_eq, Trace.extend_append]
  due_eq := by
    have hf := hf.due_eq
    have hs := hs.due_eq
    rw [List.length_append]
    omega
  kept := by
    intro earlier hk
    rw [← List.append_assoc]
    exact hs.kept _ (hf.kept _ hk)

/-- Nothing is recorded, and no value is taken. -/
theorem nothing (ht : after.trace = before.trace) (hd : after.due = before.due + count)
    (hv : before.values.items ⊆ after.values.items) : Recorded [] count before after where
  trace_eq := by rw [ht, Trace.extend_nil]
  due_eq := by rw [hd, List.length_nil, Nat.zero_add]
  kept := by
    intro earlier hk
    rw [List.append_nil]
    exact hk.mono hv

/-- The result of the last step is pushed. -/
theorem pushed (ht : after.trace = before.trace.extend (steps ++ [step]))
    (hd : steps.length + 1 + after.due = before.due + count)
    (hv : step.result ∈ after.values.items) : Recorded (steps ++ [step]) count before after where
  trace_eq := ht
  due_eq := by rwa [List.length_append]
  kept := by
    intro earlier _
    rw [← List.append_assoc]
    exact kept_append_singleton _ hv

variable {values left : List Float} {waiting : List Waiting} {vars vars' : Variables}
variable {trace : Trace}

/-- A product is recorded when it is read, if both sides are known. -/
theorem product (op : ProductOperator) (operand : Operand) (first right : Float) :
    Recorded [op.1.step first right] (applications [.operator op.1, operand.token])
      ⟨⟨first :: values⟩, ⟨waiting⟩, vars, trace⟩
      ⟨⟨op.1.apply first right :: values⟩, ⟨waiting⟩, vars',
        trace.extend [op.1.step first right]⟩ := by
  have hcount : applications [.operator op.1, operand.token] = 1 := by
    change applications ([.operator op.1] ++ [operand.token]) = 1
    rw [applications_append, applications_operator, applications_operand, op.isApplied]
    rfl
  change Recorded ([] ++ [_]) _ _ _
  refine pushed rfl ?_ List.mem_cons_self
  rw [hcount, Nat.add_comm]
  rfl

/-- A product that has waited is recorded when it is applied. -/
theorem settled (op : ProductOperator) (first right : Float) :
    Recorded [op.1.step first right] 0
      ⟨⟨right :: first :: values⟩, ⟨.operator op :: waiting⟩, vars, trace⟩
      ⟨⟨op.1.apply first right :: values⟩, ⟨waiting⟩, vars, trace.extend [op.1.step first right]⟩ := by
  change Recorded ([] ++ [_]) 0 _ _
  refine pushed rfl ?_ List.mem_cons_self
  simp [Machine.due, Waiting.isApplied, Nat.add_comm]

/-- The step of an operator that waits is due. -/
theorem waits (op : Operator) :
    Recorded [] (applications [.operator op]) ⟨⟨values⟩, ⟨waiting⟩, vars, trace⟩
      ⟨⟨values⟩, ⟨.operator op :: waiting⟩, vars, trace⟩ := by
  refine nothing rfl ?_ (List.Subset.refl _)
  rw [applications_operator, Machine.due, Machine.due, List.countP_cons, Waiting.isApplied]
  cases op.isApplied <;> rfl

/-- A group that is closed is recorded as the sum of its terms. -/
theorem closed (terms : Terms) {values' : List Float} {sum : Sum} :
    Recorded (sum.stepsIn .parenthesis) 1
      ⟨⟨values'⟩, ⟨terms.waiting ++ .group :: waiting⟩, vars, trace⟩
      ⟨⟨sum.total :: values⟩, ⟨waiting⟩, vars, trace.extend (sum.stepsIn .parenthesis)⟩ := by
  change Recorded ([] ++ [_]) 1 _ _
  refine pushed rfl ?_ List.mem_cons_self
  simp [Machine.due, terms.countP_waiting, Waiting.isApplied, Nat.add_comm]

/-- A chain of powers is recorded whole. -/
theorem chain (base : Float) {exponents : List Float} (hne : exponents ≠ []) :
    Recorded (powerSteps base exponents) exponents.length ⟨⟨values⟩, ⟨waiting⟩, vars, trace⟩
      ⟨⟨power base exponents :: left⟩, ⟨waiting⟩, vars',
        trace.extend (powerSteps base exponents)⟩ := by
  obtain ⟨exponent, exponents, rfl⟩ := List.exists_cons_of_ne_nil hne
  refine pushed rfl ?_ List.mem_cons_self
  rw [length_powerSteps, List.length_cons, Nat.add_comm]
  rfl

end Recorded
end Reckoner
