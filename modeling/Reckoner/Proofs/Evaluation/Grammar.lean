import Reckoner.Token
import Mathlib.Data.List.Basic

/-! # The grammar of expressions and its values

Syntax trees of infix expressions, the tokens they are written with and the
values they stand for. The grammar knows no stacks: it is what the evaluation
of tokens is measured against. -/

namespace Reckoner

/-- The name that a token reads. -/
def Token.name? : Token → Option String
  | .identifier name => some name
  | _ => none

/-- The names that some tokens read, in order and with repetitions. -/
def names (tokens : List Token) : List String := tokens.filterMap Token.name?

@[simp] theorem names_append (first second : List Token) :
    names (first ++ second) = names first ++ names second :=
  List.filterMap_append

theorem mem_names_iff {name : String} {tokens : List Token} :
    name ∈ names tokens ↔ .identifier name ∈ tokens := by
  rw [names, List.mem_filterMap]
  constructor
  · rintro ⟨token, hm, hn⟩
    cases token with
    | identifier other =>
        obtain rfl : other = name := Option.some.inj hn
        exact hm
    | _ => cases hn
  · intro hm
    exact ⟨_, hm, rfl⟩

/-- An operator of additions and subtractions. -/
abbrev SumOperator := { op : Operator // op.precedence = .sum }

/-- An operator of multiplications, divisions and remainders. -/
abbrev ProductOperator := { op : Operator // op.precedence = .product }

theorem SumOperator.ne_pow (op : SumOperator) : op.1 ≠ .pow :=
  fun h => nomatch op.2.symm.trans (congrArg Operator.precedence h)

theorem ProductOperator.ne_pow (op : ProductOperator) : op.1 ≠ .pow :=
  fun h => nomatch op.2.symm.trans (congrArg Operator.precedence h)

/-- What is no power is a sum or a product. -/
theorem Operator.sum_or_product {op : Operator} (hop : op ≠ .pow) :
    (∃ sum : SumOperator, sum.1 = op) ∨ ∃ product : ProductOperator, product.1 = op := by
  cases op with
  | add => exact .inl ⟨⟨.add, rfl⟩, rfl⟩
  | sub => exact .inl ⟨⟨.sub, rfl⟩, rfl⟩
  | mul => exact .inr ⟨⟨.mul, rfl⟩, rfl⟩
  | div => exact .inr ⟨⟨.div, rfl⟩, rfl⟩
  | rem => exact .inr ⟨⟨.rem, rfl⟩, rfl⟩
  | pow => exact absurd rfl hop

inductive Operand where
  | number (value : Float)
  | named (name : String)
  deriving DecidableEq

namespace Operand

def token : Operand → Token
  | .number value => .number value
  | .named name => .identifier name

def value (read : String → Float) : Operand → Float
  | .number value => value
  | .named name => read name

@[simp] theorem isOperand_token (operand : Operand) : operand.token.isOperand = true := by
  cases operand <;> rfl

theorem exists_of_isOperand {token : Token} (h : token.isOperand = true) :
    ∃ operand : Operand, operand.token = token := by
  cases token with
  | number value => exact ⟨.number value, rfl⟩
  | identifier name => exact ⟨.named name, rfl⟩
  | _ => cases h

@[simp] theorem token_ne_operator (operand : Operand) (op : Operator) :
    operand.token ≠ .operator op := by
  cases operand <;> simp [token]

@[simp] theorem token_ne_leftParen (operand : Operand) : operand.token ≠ .leftParen := by
  cases operand <;> simp [token]

end Operand

/-- The tokens of a chain of powers behind its base. -/
def powerTokens (exponents : List Operand) : List Token :=
  exponents.flatMap fun exponent => [.operator .pow, exponent.token]

@[simp] theorem powerTokens_nil : powerTokens [] = [] := rfl

@[simp] theorem powerTokens_cons (exponent : Operand) (exponents : List Operand) :
    powerTokens (exponent :: exponents) =
      .operator .pow :: exponent.token :: powerTokens exponents := rfl

theorem powerTokens_eq_append (exponent : Operand) (exponents : List Operand) :
    powerTokens (exponent :: exponents) =
      [.operator .pow] ++ ([exponent.token] ++ powerTokens exponents) := rfl

theorem forall_mem_powerTokens {p : Token → Prop} (ho : ∀ operand : Operand, p operand.token)
    (hc : p (.operator .pow)) (exponents : List Operand) :
    ∀ token ∈ powerTokens exponents, p token := by
  induction exponents with
  | nil => nofun
  | cons exponent exponents ih =>
      simp only [powerTokens_cons, List.mem_cons, or_imp, forall_and, forall_eq]
      exact ⟨hc, ho exponent, ih⟩

/-- The tokens do not go on with a power. -/
abbrev NoPower (tokens : List Token) : Prop := tokens.head? ≠ some (.operator .pow)

theorem noPower_operator {op : Operator} (hop : op ≠ .pow) (rest : List Token) :
    NoPower (.operator op :: rest) := by
  intro h
  cases h
  exact hop rfl

/-- A base raised to a chain of exponents, folded from the right. -/
def power (base : Float) : List Float → Float
  | [] => base
  | exponent :: exponents => Operator.pow.apply base (power exponent exponents)

mutual

/-- Terms joined by additions and subtractions. -/
inductive Expr where
  | term (t : Term)
  | sum (left : Expr) (op : SumOperator) (right : Term)

/-- Factors joined by products. -/
inductive Term where
  | factor (f : Factor)
  | product (left : Term) (op : ProductOperator) (right : Factor)

/-- An operand or a group, raised to the exponents behind it. -/
inductive Factor where
  | operand (base : Operand) (exponents : List Operand)
  | group (inner : Expr) (exponents : List Operand)

end

mutual

def Expr.tokens : Expr → List Token
  | .term t => t.tokens
  | .sum left op right => left.tokens ++ .operator op :: right.tokens

def Term.tokens : Term → List Token
  | .factor f => f.tokens
  | .product left op right => left.tokens ++ .operator op :: right.tokens

def Factor.tokens : Factor → List Token
  | .operand base exponents => base.token :: powerTokens exponents
  | .group inner exponents => .leftParen :: inner.tokens ++ .rightParen :: powerTokens exponents

end

mutual

theorem Expr.forall_mem_tokens {p : Token → Prop} (ho : ∀ operand : Operand, p operand.token)
    (hs : ∀ op, p (.operator op)) (hl : p .leftParen) (hr : p .rightParen) (e : Expr) :
    ∀ token ∈ e.tokens, p token := by
  match e with
  | .term t => exact t.forall_mem_tokens ho hs hl hr
  | .sum left op right =>
      simp only [Expr.tokens, List.mem_append, List.mem_cons, or_imp, forall_and, forall_eq]
      exact ⟨left.forall_mem_tokens ho hs hl hr, hs op, right.forall_mem_tokens ho hs hl hr⟩

theorem Term.forall_mem_tokens {p : Token → Prop} (ho : ∀ operand : Operand, p operand.token)
    (hs : ∀ op, p (.operator op)) (hl : p .leftParen) (hr : p .rightParen) (t : Term) :
    ∀ token ∈ t.tokens, p token := by
  match t with
  | .factor f => exact f.forall_mem_tokens ho hs hl hr
  | .product left op right =>
      simp only [Term.tokens, List.mem_append, List.mem_cons, or_imp, forall_and, forall_eq]
      exact ⟨left.forall_mem_tokens ho hs hl hr, hs op, right.forall_mem_tokens ho hs hl hr⟩

/-- The tokens of an expression are operands, operators and parentheses. -/
theorem Factor.forall_mem_tokens {p : Token → Prop} (ho : ∀ operand : Operand, p operand.token)
    (hs : ∀ op, p (.operator op)) (hl : p .leftParen) (hr : p .rightParen) (f : Factor) :
    ∀ token ∈ f.tokens, p token := by
  have hp := forall_mem_powerTokens ho (hs .pow)
  match f with
  | .operand base exponents =>
      simp only [Factor.tokens, List.mem_cons, or_imp, forall_and, forall_eq]
      exact ⟨ho base, hp exponents⟩
  | .group inner exponents =>
      simp only [Factor.tokens, List.cons_append, List.mem_append, List.mem_cons, or_imp,
        forall_and, forall_eq]
      exact ⟨hl, inner.forall_mem_tokens ho hs hl hr, hr, hp exponents⟩

end

theorem Expr.assign_not_mem_tokens (e : Expr) : .assign ∉ e.tokens := fun hm =>
  e.forall_mem_tokens (p := (· ≠ .assign)) (fun operand => by cases operand <;> nofun)
    (fun _ => nofun) nofun nofun _ hm rfl

theorem Term.tokens_ne_nil (t : Term) : t.tokens ≠ [] := by
  match t with
  | .factor (.operand _ _) | .factor (.group _ _) => simp [tokens, Factor.tokens]
  | .product left op right => simp [tokens]

theorem Expr.tokens_ne_nil (e : Expr) : e.tokens ≠ [] := by
  match e with
  | .term t => exact t.tokens_ne_nil
  | .sum left op right => simp [tokens]

mutual

/-- The terms are added to a total from the last to the second, the first one at the end. -/
def Expr.addTo (read : String → Float) (total : Float) : Expr → Float
  | .term t => total + t.value read
  | .sum left op right => left.addTo read (op.1.apply total (right.value read))

def Term.value (read : String → Float) : Term → Float
  | .factor f => f.value read
  | .product left op right => right.valueBehind read (op.1.apply (left.value read))

def Factor.value (read : String → Float) : Factor → Float
  | .operand base exponents => power (base.value read) (exponents.map (·.value read))
  | .group inner exponents => power (inner.addTo read 0) (exponents.map (·.value read))

/-- A factor behind a product. The product covers all of a chain on an operand,
but only the group itself of a chain on a group. -/
def Factor.valueBehind (read : String → Float) (multiply : Float → Float) : Factor → Float
  | .operand base exponents => multiply (power (base.value read) (exponents.map (·.value read)))
  | .group inner exponents => power (multiply (inner.addTo read 0)) (exponents.map (·.value read))

end

/-- The value of an expression whose names read as given. -/
def Expr.value (read : String → Float) (e : Expr) : Float := e.addTo read 0

/-- The tokens are those of an infix expression. -/
def Infix (tokens : List Token) : Prop := ∃ e : Expr, e.tokens = tokens

end Reckoner
