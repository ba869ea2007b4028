import Reckoner.Proofs.Evaluation.Shape

/-! # Powers behind a value

What the powers behind a value do to a shape, and what they do to a product in
front of that value: the product is taken at once only if there are none. -/

namespace Reckoner

theorem noPower_operand (operand : Operand) (rest : List Token) :
    NoPower (operand.token :: rest) := by
  cases operand <;> nofun

theorem Run.mustWait_operand (operand : Operand) {rest : List Token} (hp : ¬ NoPower rest) :
    Run.mustWait (operand.token :: rest) = true := by
  obtain ⟨after, rfl⟩ : ∃ after, rest = .operator .pow :: after := by
    simpa [NoPower, List.head?_eq_some_iff] using hp
  cases operand <;> rfl

/-- The powers behind some tokens, whose last one may stand at the end of the line. -/
inductive Tail : (tail rest : List Token) → (before after : Nat) → Prop
  | none {rest count} (hn : NoPower rest) : Tail [] rest count count
  | chain (exponents : List Operand) {rest count} (hne : exponents ≠ []) (hn : NoPower rest) :
      Tail (powerTokens exponents) rest (count + 1) (count + 1)
  | hanging (exponents : List Operand) {count} :
      Tail (powerTokens exponents ++ [.operator .pow]) [] (count + 2) (count + 1)

namespace Tail

theorem powers (exponents : List Operand) {rest : List Token} {count : Nat} (hn : NoPower rest) :
    Tail (powerTokens exponents) rest (count + 1) (count + 1) := by
  cases exponents with
  | nil => exact .none hn
  | cons exponent exponents => exact .chain _ (List.cons_ne_nil _ _) hn

variable {tail rest : List Token} {count before after : Nat} {waiting : List Waiting}

theorem cons (exponent : Operand) (h : Tail tail rest (count + 1) after) :
    Tail (.operator .pow :: exponent.token :: tail) rest (count + 1) after := by
  generalize hb : count + 1 = before at h
  cases h with
  | none hn =>
      subst hb
      exact .chain [exponent] (by simp) hn
  | chain exponents hne hn => exact .chain (exponent :: exponents) (by simp) hn
  | hanging exponents => exact .hanging (exponent :: exponents)

theorem steps (h : Tail tail rest before after) (hq : Quiet waiting) :
    Shape.Steps tail rest ⟨before, waiting⟩ ⟨after, waiting⟩ := by
  cases h with
  | none => exact .nil
  | chain exponents hne hn => exact (Shape.Step.power exponents hne hn (.quiet hq)).single
  | hanging exponents => exact (Shape.Step.hanging exponents (.quiet hq)).single

/-- A product that waits for the powers behind its right operand is taken along with them. -/
theorem steps_deferred (op : ProductOperator) (operand : Operand) {after : Shape}
    (hp : ¬ NoPower (tail ++ rest))
    (hs : Shape.Steps tail rest ⟨count + 1, .operator op.1 :: waiting⟩ after) :
    Shape.Steps ([.operator op.1, operand.token] ++ tail) rest ⟨count, waiting⟩ after := by
  have hf : Shape.Steps ([operand.token] ++ tail) rest ⟨count, .operator op.1 :: waiting⟩ after :=
    .cons (Shape.Step.operand operand) hs
  have hm : Run.mustWait ([operand.token] ++ tail ++ rest) = true := Run.mustWait_operand operand hp
  have hall : Shape.Steps ([.operator op.1] ++ ([operand.token] ++ tail)) rest ⟨count, waiting⟩
      after := .cons (Shape.Step.productWaits op hm) hf
  exact hall

/-- A product with an operand and the powers behind it. It waits when there are such powers. -/
theorem steps_product (op : ProductOperator) (operand : Operand)
    (h : Tail tail rest (count + 1) after) :
    Shape.Steps ([.operator op.1, operand.token] ++ tail) rest ⟨count + 1, waiting⟩
      ⟨after, waiting⟩ := by
  generalize hb : count + 1 = before at h
  cases h with
  | none hn =>
      subst hb
      rw [List.append_nil]
      exact (Shape.Step.product op operand hn).single
  | chain exponents hne hn =>
      obtain rfl : count = _ := Nat.succ.inj hb
      obtain ⟨exponent, exponents, rfl⟩ := List.exists_cons_of_ne_nil hne
      exact steps_deferred op operand (by simp) (Shape.Step.power _ hne hn (.product op)).single
  | @hanging exponents count' =>
      obtain rfl : count = count' + 1 := Nat.succ.inj hb
      refine steps_deferred op operand ?_ (Shape.Step.hanging exponents (.product op)).single
      cases exponents <;> simp

end Tail
end Reckoner
