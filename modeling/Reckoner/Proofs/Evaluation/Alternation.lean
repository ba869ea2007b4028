import Reckoner.Proofs.Evaluation.Counts

/-! # Infix lists as alternations

Whether operands and operators take turns can be seen from neighbouring tokens
alone. The infix lists are those that alternate and whose parentheses match, so
a line can be compared with the grammar without a parse. -/

namespace Reckoner

/-- A place in a line, by what may come next. -/
inductive Place where
  /-- An operand or a group. -/
  | value
  /-- Anything that may stand behind a value. -/
  | link

/-- Some tokens alternate from a place on. The exponent of a power is an operand. -/
inductive Alternates : Place → List Token → Prop
  | leftParen {tokens} (ht : Alternates .value tokens) : Alternates .value (.leftParen :: tokens)
  | operand (operand : Operand) {tokens} (ht : Alternates .link tokens) :
      Alternates .value (operand.token :: tokens)
  | nil : Alternates .link []
  | rightParen {tokens} (ht : Alternates .link tokens) : Alternates .link (.rightParen :: tokens)
  | operator {op : Operator} (hop : op ≠ .pow) {tokens} (ht : Alternates .value tokens) :
      Alternates .link (.operator op :: tokens)
  | power (exponent : Operand) {tokens} (ht : Alternates .link tokens) :
      Alternates .link (.operator .pow :: exponent.token :: tokens)

theorem alternates_powerTokens (exponents : List Operand) {rest : List Token}
    (hr : Alternates .link rest) : Alternates .link (powerTokens exponents ++ rest) := by
  induction exponents with
  | nil => exact hr
  | cons exponent exponents ih => exact .power exponent ih

theorem Alternates.assign_not_mem {place : Place} {tokens : List Token}
    (h : Alternates place tokens) : .assign ∉ tokens := by
  have ho : ∀ operand : Operand, .assign ≠ operand.token := by
    intro operand
    cases operand <;> nofun
  induction h with
  | nil => nofun
  | leftParen _ ih | rightParen _ ih | operator _ _ ih => simpa using ih
  | operand operand _ ih => simpa using ⟨ho operand, ih⟩
  | power exponent _ ih => simpa using ⟨ho exponent, ih⟩

theorem Alternates.ne_nil {tokens : List Token} (h : Alternates .value tokens) : tokens ≠ [] := by
  cases h <;> nofun

/-- A chain of powers is followed to its end. -/
theorem Alternates.exists_powers {tokens : List Token} (h : Alternates .link tokens) :
    ∃ exponents rest, tokens = powerTokens exponents ++ rest ∧ NoPower rest ∧
      Alternates .link rest := by
  generalize hp : Place.link = place at h
  induction h with
  | leftParen => cases hp
  | operand => cases hp
  | nil => exact ⟨[], [], rfl, nofun, .nil⟩
  | rightParen ht => exact ⟨[], _, rfl, nofun, .rightParen ht⟩
  | operator hop ht => exact ⟨[], _, rfl, noPower_operator hop _, .operator hop ht⟩
  | power exponent ht ih =>
      obtain ⟨exponents, rest, rfl, hn, hr⟩ := ih rfl
      exact ⟨exponent :: exponents, rest, rfl, hn, hr⟩

mutual

/-- An expression alternates, and what may stand behind a value may stand behind it. -/
theorem Expr.alternates (e : Expr) {rest : List Token} (hr : Alternates .link rest) :
    Alternates .value (e.tokens ++ rest) := by
  match e with
  | .term t => exact t.alternates hr
  | .sum left op right =>
      rw [Expr.tokens, List.append_assoc]
      exact left.alternates (.operator op.ne_pow (right.alternates hr))

theorem Term.alternates (t : Term) {rest : List Token} (hr : Alternates .link rest) :
    Alternates .value (t.tokens ++ rest) := by
  match t with
  | .factor f => exact f.alternates hr
  | .product left op right =>
      rw [Term.tokens, List.append_assoc]
      exact left.alternates (.operator op.ne_pow (right.alternates hr))

theorem Factor.alternates (f : Factor) {rest : List Token} (hr : Alternates .link rest) :
    Alternates .value (f.tokens ++ rest) := by
  match f with
  | .operand base exponents => exact .operand base (alternates_powerTokens exponents hr)
  | .group inner exponents =>
      rw [Factor.tokens, List.append_assoc]
      exact .leftParen (inner.alternates (.rightParen (alternates_powerTokens exponents hr)))

end

/-- The expression whose last term goes on with a further factor. -/
def Expr.times : Expr → ProductOperator → Factor → Expr
  | .term t, op, f => .term (.product t op f)
  | .sum left sign t, op, f => .sum left sign (.product t op f)

theorem Expr.tokens_times (e : Expr) (op : ProductOperator) (f : Factor) :
    (e.times op f).tokens = e.tokens ++ .operator op :: f.tokens := by
  cases e with
  | term t => rfl
  | sum left sign t => simp [times, tokens, Term.tokens]

def Factor.raise : Factor → Operand → Factor
  | .operand base exponents, exponent => .operand base (exponents ++ [exponent])
  | .group inner exponents, exponent => .group inner (exponents ++ [exponent])

def Term.raise : Term → Operand → Term
  | .factor f, exponent => .factor (f.raise exponent)
  | .product left op f, exponent => .product left op (f.raise exponent)

/-- The expression whose last factor is raised to a further exponent. -/
def Expr.raise : Expr → Operand → Expr
  | .term t, exponent => .term (t.raise exponent)
  | .sum left sign t, exponent => .sum left sign (t.raise exponent)

theorem Factor.tokens_raise (f : Factor) (exponent : Operand) :
    (f.raise exponent).tokens = f.tokens ++ [.operator .pow, exponent.token] := by
  cases f <;> simp [raise, tokens, powerTokens]

theorem Expr.tokens_raise (e : Expr) (exponent : Operand) :
    (e.raise exponent).tokens = e.tokens ++ [.operator .pow, exponent.token] := by
  have ht : ∀ t : Term,
      (t.raise exponent).tokens = t.tokens ++ [.operator .pow, exponent.token] := by
    intro t
    cases t with
    | factor f => exact f.tokens_raise exponent
    | product left op f => simp [Term.raise, Term.tokens, f.tokens_raise]
  cases e with
  | term t => exact ht t
  | sum left sign t => simp [raise, tokens, ht]

/-- The tokens that may stand in a group in front of a place. -/
inductive Place.Reads : Place → List Token → Prop
  | nil : Reads .value []
  | sum (left : Expr) (op : SumOperator) : Reads .value (left.tokens ++ [.operator op])
  | product (left : Expr) (op : ProductOperator) : Reads .value (left.tokens ++ [.operator op])
  | expr (e : Expr) : Reads .link e.tokens

theorem Place.Reads.factor {front : List Token} (h : Place.value.Reads front) (f : Factor) :
    Place.link.Reads (front ++ f.tokens) := by
  cases h with
  | nil => exact .expr (.term (.factor f))
  | sum left op =>
      rw [List.append_assoc]
      exact .expr (.sum left op (.factor f))
  | product left op =>
      rw [List.append_assoc, List.singleton_append, ← left.tokens_times]
      exact .expr (left.times op f)

theorem Place.Reads.operator {front : List Token} (h : Place.link.Reads front) {op : Operator}
    (hop : op ≠ .pow) : Place.value.Reads (front ++ [.operator op]) := by
  cases h with
  | expr e =>
      rcases Operator.sum_or_product hop with ⟨sum, rfl⟩ | ⟨product, rfl⟩
      · exact .sum e sum
      · exact .product e product

theorem Place.Reads.power {front : List Token} (h : Place.link.Reads front) (exponent : Operand) :
    Place.link.Reads (front ++ [.operator .pow, exponent.token]) := by
  cases h with
  | expr e =>
      rw [← e.tokens_raise]
      exact .expr (e.raise exponent)

/-- The tokens in front of an open group, for each group from the inside out. -/
def outerTokens : List (List Token) → List Token
  | [] => []
  | front :: outer => outerTokens outer ++ (front ++ [.leftParen])

/-- An alternation that closes what is open completes an expression. -/
theorem Alternates.exists_expr {place : Place} {tokens : List Token} (h : Alternates place tokens)
    (outer : List (List Token)) {front : List Token} (ho : ∀ front ∈ outer, Place.value.Reads front)
    (hf : place.Reads front) (hc : ClosedFrom outer.length tokens) :
    Infix (outerTokens outer ++ (front ++ tokens)) := by
  induction h generalizing outer front with
  | @leftParen tokens ht ih =>
      have hl : outerTokens outer ++ (front ++ .leftParen :: tokens) =
          outerTokens (front :: outer) ++ ([] ++ tokens) := by simp [outerTokens]
      rw [hl]
      apply ih (front :: outer) (List.forall_mem_cons.mpr ⟨hf, ho⟩) .nil
      simpa using hc.of_append [.leftParen]
  | @operand operand tokens ht ih =>
      rw [List.append_cons front]
      apply ih outer ho (hf.factor (.operand operand []))
      simpa using hc.of_append [operand.token]
  | nil =>
      have hn : outer = [] := List.eq_nil_of_length_eq_zero (by simpa using hc.eq_zero)
      cases hf with
      | expr e => exact ⟨e, by simp [hn, outerTokens]⟩
  | @rightParen tokens ht ih =>
      cases outer with
      | nil =>
          have hn := hc.nonneg [.rightParen] ⟨tokens, rfl⟩
          simp at hn
      | cons first outer =>
          obtain ⟨hfirst, ho⟩ := List.forall_mem_cons.mp ho
          cases hf with
          | expr e =>
              have hc := hc.of_append [.rightParen]
              rw [depth_rightParen, List.length_cons, Int.natCast_succ,
                Int.add_neg_cancel_right] at hc
              have hr := ih outer ho (hfirst.factor (.group e [])) hc
              simpa [outerTokens, Factor.tokens] using hr
  | @operator op hop tokens ht ih =>
      rw [List.append_cons front]
      apply ih outer ho (hf.operator hop)
      simpa using hc.of_append [.operator op]
  | @power exponent tokens ht ih =>
      have hl : front ++ .operator .pow :: exponent.token :: tokens =
          front ++ [.operator .pow, exponent.token] ++ tokens := by simp
      rw [hl]
      apply ih outer ho (hf.power exponent)
      have hd : depth [.operator .pow, exponent.token] = 0 := by
        have ha := depth_append [.operator .pow] [exponent.token]
        simpa using ha
      simpa [hd] using hc.of_append [.operator .pow, exponent.token]

end Reckoner
