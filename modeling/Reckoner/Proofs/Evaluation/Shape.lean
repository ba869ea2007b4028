import Reckoner.Proofs.Evaluation.Step

/-! # The shape of the stacks

Which steps succeed depends only on the number of values, on the operators that
wait and on the tokens to come. A successful step is a step between shapes,
reads names that may be read, and declares them; and every step between shapes
is taken by some machine, whatever its values are. -/

namespace Reckoner

/-- The number of values and the operators that wait, from the top down. -/
@[ext] structure Shape where
  values : Nat
  waiting : List Waiting

def Machine.shape (machine : Machine) : Shape := ⟨machine.values.size, machine.waiting.items⟩

/-- Additions and subtractions that wait. -/
def waitingSums (signs : List SumOperator) : List Waiting :=
  signs.map fun op => .operator op.1

@[simp] theorem waitingSums_nil : waitingSums [] = [] := rfl

@[simp] theorem waitingSums_cons (op : SumOperator) (signs : List SumOperator) :
    waitingSums (op :: signs) = .operator op.1 :: waitingSums signs := rfl

theorem quiet_sums (signs : List SumOperator) {waiting : List Waiting} (hq : Quiet waiting) :
    Quiet (waitingSums signs ++ waiting) := by
  cases signs with
  | nil => exact hq
  | cons op signs => exact quiet_sum op _

theorem group_not_mem_sums (signs : List SumOperator) : .group ∉ waitingSums signs := by
  simp [waitingSums]

namespace Terms

def signs (terms : Terms) : List SumOperator := terms.map (·.1)

@[simp] theorem length_signs (terms : Terms) : terms.signs.length = terms.length :=
  List.length_map _

theorem waiting_eq_waitingSums (terms : Terms) : terms.waiting = waitingSums terms.signs := by
  simp [waiting, waitingSums, signs]

/-- Enough values on the stack can be taken as terms with given signs. -/
theorem exists_of_length_le (signs : List SumOperator) (values : List Float)
    (hl : signs.length ≤ values.length) :
    ∃ (terms : Terms) (rest : List Float), terms.signs = signs ∧ values = terms.values ++ rest := by
  induction signs generalizing values with
  | nil => exact ⟨[], values, rfl, rfl⟩
  | cons op signs ih =>
      cases values with
      | nil => simp at hl
      | cons value values =>
          obtain ⟨terms, rest, hs, rfl⟩ := ih values (by simpa using hl)
          exact ⟨(op, value) :: terms, rest, by simp [Terms.signs, ← hs], rfl⟩

end Terms

namespace Shape

/-- What becomes of a shape when a product that waits takes the value on top. -/
inductive Settles : Shape → Shape → Prop
  | quiet {count waiting} (hq : Quiet waiting) : Settles ⟨count, waiting⟩ ⟨count, waiting⟩
  | product (op : ProductOperator) {count waiting} :
      Settles ⟨count + 2, .operator op :: waiting⟩ ⟨count + 1, waiting⟩

/-- A step that reads `piece` in front of `rest`. -/
inductive Step : (piece rest : List Token) → Shape → Shape → Prop
  | operand (operand : Operand) {rest count waiting} :
      Step [operand.token] rest ⟨count, waiting⟩ ⟨count + 1, waiting⟩
  | leftParen {rest count waiting} :
      Step [.leftParen] rest ⟨count, waiting⟩ ⟨count, .group :: waiting⟩
  | rightParen (signs : List SumOperator) {rest count waiting before after}
      (hb : before = ⟨count + 1 + signs.length, waitingSums signs ++ .group :: waiting⟩)
      (hs : Settles ⟨count + 1, waiting⟩ after) : Step [.rightParen] rest before after
  | power (exponents : List Operand) {rest count waiting after} (hne : exponents ≠ [])
      (hn : NoPower rest) (hs : Settles ⟨count + 1, waiting⟩ after) :
      Step (powerTokens exponents) rest ⟨count + 1, waiting⟩ after
  | hanging (exponents : List Operand) {count waiting after}
      (hs : Settles ⟨count + 1, waiting⟩ after) :
      Step (powerTokens exponents ++ [.operator .pow]) [] ⟨count + 2, waiting⟩ after
  | product (op : ProductOperator) (operand : Operand) {rest count waiting} (hn : NoPower rest) :
      Step [.operator op, operand.token] rest ⟨count + 1, waiting⟩ ⟨count + 1, waiting⟩
  | productWaits (op : ProductOperator) {rest count waiting} (hm : Run.mustWait rest = true) :
      Step [.operator op] rest ⟨count, waiting⟩ ⟨count, .operator op :: waiting⟩
  | sum (op : SumOperator) {rest count waiting} :
      Step [.operator op] rest ⟨count, waiting⟩ ⟨count, .operator op :: waiting⟩

/-- Any number of steps that read `piece` in front of `rest`. -/
inductive Steps : (piece rest : List Token) → Shape → Shape → Prop
  | nil {rest shape} : Steps [] rest shape shape
  | cons {first second rest before middle after} (hf : Step first (second ++ rest) before middle)
      (hs : Steps second rest middle after) : Steps (first ++ second) rest before after

theorem Step.single {piece rest : List Token} {before after : Shape}
    (h : Step piece rest before after) : Steps piece rest before after := by
  have hs : Steps (piece ++ []) rest before after := .cons h .nil
  rwa [List.append_nil] at hs

theorem Steps.append {first second rest : List Token} {before middle after : Shape}
    (hf : Steps first (second ++ rest) before middle) (hs : Steps second rest middle after) :
    Steps (first ++ second) rest before after := by
  generalize hr : second ++ rest = tokens at hf
  induction hf with
  | nil => exact hs
  | cons h _ ih =>
      subst hr
      rw [List.append_assoc]
      rw [← List.append_assoc] at h
      exact .cons h (ih hs rfl)

end Shape

/-- No power waits. This holds between any two steps of an evaluation. -/
def Powerless (waiting : List Waiting) : Prop := .operator .pow ∉ waiting

theorem Powerless.head?_ne_pow {waiting : List Waiting} (hw : Powerless waiting) :
    waiting.head? ≠ some (.operator .pow) := fun h => hw (List.mem_of_head? h)

theorem Powerless.tail {entry : Waiting} {waiting : List Waiting}
    (hw : Powerless (entry :: waiting)) : Powerless waiting :=
  fun hm => hw (List.mem_cons_of_mem _ hm)

theorem Powerless.of_append {above below : List Waiting} (hw : Powerless (above ++ below)) :
    Powerless below := fun hm => hw (List.mem_append_right _ hm)

theorem powerless_cons {entry : Waiting} {waiting : List Waiting} :
    Powerless (entry :: waiting) ↔ entry ≠ .operator .pow ∧ Powerless waiting := by
  simp [Powerless, eq_comm]

theorem powerless_sums (signs : List SumOperator) {waiting : List Waiting}
    (hw : Powerless waiting) : Powerless (waitingSums signs ++ waiting) := by
  induction signs with
  | nil => exact hw
  | cons op signs ih =>
      exact powerless_cons.mpr ⟨fun he => op.ne_pow (Waiting.operator.inj he), ih⟩

namespace Shape

variable {piece rest : List Token} {before after : Shape}

theorem Settles.eq_of_quiet (h : Settles before after) (hq : Quiet before.waiting) :
    after = before := by
  cases h with
  | quiet => rfl
  | product op => exact absurd rfl (hq.ne_product op)

theorem Settles.eq_of_product {op : ProductOperator} {count : Nat} {waiting : List Waiting}
    (h : Settles ⟨count, .operator op.1 :: waiting⟩ after) :
    ∃ left, count = left + 2 ∧ after = ⟨left + 1, waiting⟩ := by
  generalize hb : Shape.mk count (.operator op.1 :: waiting) = before at h
  cases h with
  | quiet hq =>
      cases hb
      exact absurd rfl (hq.ne_product op)
  | @product op' left below =>
      obtain ⟨rfl, hw⟩ := Shape.mk.inj hb
      obtain ⟨_, rfl⟩ := List.cons.inj hw
      exact ⟨left, rfl, rfl⟩

theorem Settles.powerless (h : Settles before after) (hw : Powerless before.waiting) :
    Powerless after.waiting := by
  cases h with
  | quiet => exact hw
  | product op => exact hw.tail

/-- Steps leave no power waiting. -/
theorem Step.powerless (h : Step piece rest before after) (hw : Powerless before.waiting) :
    Powerless after.waiting := by
  cases h with
  | operand => exact hw
  | leftParen => exact powerless_cons.mpr ⟨nofun, hw⟩
  | rightParen signs hb hs =>
      subst hb
      exact hs.powerless hw.of_append.tail
  | power _ _ _ hs => exact hs.powerless hw
  | hanging _ hs => exact hs.powerless hw
  | product => exact hw
  | productWaits op _ =>
      exact powerless_cons.mpr ⟨fun he => op.ne_pow (Waiting.operator.inj he), hw⟩
  | sum op => exact powerless_sums [op] hw

theorem Steps.powerless (h : Steps piece rest before after) (hw : Powerless before.waiting) :
    Powerless after.waiting := by
  induction h with
  | nil => exact hw
  | cons hf _ ih => exact ih (hf.powerless hw)

end Shape
end Reckoner
