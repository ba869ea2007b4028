import Reckoner.Proofs.Evaluation.Grammar

/-! # Counting tokens

How many more operands than operators some tokens hold, and how many
parentheses they leave open. -/

namespace Reckoner

def Token.isOperator : Token → Bool
  | .operator _ => true
  | _ => false

/-- Operands less operators. -/
def surplus (tokens : List Token) : Int :=
  tokens.countP Token.isOperand - tokens.countP Token.isOperator

/-- Opened parentheses less closed ones. -/
def depth (tokens : List Token) : Int :=
  tokens.count .leftParen - tokens.count .rightParen

@[simp] theorem surplus_nil : surplus [] = 0 := rfl

@[simp] theorem depth_nil : depth [] = 0 := rfl

@[simp] theorem surplus_append (first second : List Token) :
    surplus (first ++ second) = surplus first + surplus second := by
  simp only [surplus, List.countP_append]
  omega

@[simp] theorem depth_append (first second : List Token) :
    depth (first ++ second) = depth first + depth second := by
  simp only [depth, List.count_append]
  omega

@[simp] theorem surplus_operand (operand : Operand) : surplus [operand.token] = 1 := by
  cases operand <;> rfl

@[simp] theorem depth_operand (operand : Operand) : depth [operand.token] = 0 := by
  cases operand <;> rfl

@[simp] theorem surplus_operator (op : Operator) : surplus [.operator op] = -1 := rfl

@[simp] theorem depth_operator (op : Operator) : depth [.operator op] = 0 := rfl

/-- A chain has an operand for each of its carets. -/
theorem surplus_powerTokens (exponents : List Operand) : surplus (powerTokens exponents) = 0 := by
  induction exponents with
  | nil => rfl
  | cons exponent exponents ih =>
      rw [powerTokens_eq_append, surplus_append, surplus_append, surplus_operator, surplus_operand, ih]
      rfl

@[simp] theorem surplus_parens : surplus [.leftParen] = 0 ∧ surplus [.rightParen] = 0 :=
  ⟨rfl, rfl⟩

@[simp] theorem depth_leftParen : depth [.leftParen] = 1 := rfl

@[simp] theorem depth_rightParen : depth [.rightParen] = -1 := rfl

theorem depth_powerTokens (exponents : List Operand) : depth (powerTokens exponents) = 0 := by
  have hl : .leftParen ∉ powerTokens exponents := fun hm =>
    forall_mem_powerTokens (p := (· ≠ .leftParen)) (fun operand => operand.token_ne_leftParen)
      nofun exponents _ hm rfl
  have hr : .rightParen ∉ powerTokens exponents := fun hm =>
    forall_mem_powerTokens (p := (· ≠ .rightParen)) (fun operand => by cases operand <;> nofun)
      nofun exponents _ hm rfl
  rw [depth, List.count_eq_zero.mpr hl, List.count_eq_zero.mpr hr]
  rfl

/-- Tokens without a closing parenthesis close nothing. -/
theorem depth_nonneg {tokens : List Token} (hr : .rightParen ∉ tokens) : 0 ≤ depth tokens := by
  rw [depth, List.count_eq_zero.mpr hr]
  omega

/-- Every parenthesis is opened before it is closed, and all are closed in the
end, when some were open before. -/
structure ClosedFrom (opened : Int) (tokens : List Token) : Prop where
  nonneg : ∀ front, front <+: tokens → 0 ≤ opened + depth front
  eq_zero : opened + depth tokens = 0

/-- Every parenthesis is opened before it is closed, and all are closed in the end. -/
abbrev Balanced (tokens : List Token) : Prop := ClosedFrom 0 tokens

namespace ClosedFrom

variable {opened : Int} {second : List Token}

theorem of_append (first : List Token) (h : ClosedFrom opened (first ++ second)) :
    ClosedFrom (opened + depth first) second where
  nonneg := by
    intro front hf
    have hn := h.nonneg (first ++ front) ((List.prefix_append_right_inj first).mpr hf)
    rwa [depth_append, ← Int.add_assoc] at hn
  eq_zero := by
    have he := h.eq_zero
    rwa [depth_append, ← Int.add_assoc] at he

end ClosedFrom
end Reckoner
