import Reckoner.Proofs.Evaluation.Accounting
import Reckoner.Proofs.Evaluation.Alternation
import Reckoner.Proofs.Evaluation.Reference
import Reckoner.Proofs.Evaluation.Tail

/-! # Which lists have a value

An operator takes its left operand from whatever values there are, and a sum
takes its right operand only when its group ends. So a list has a value as soon
as each operator is supplied, wherever the operands stand. The lists that are
supplied are counted out here; the infix lists are those among them that
alternate. -/

namespace Reckoner

/-- With `before` values on the stack some tokens can be read, and leave `after`
values and `sums` operators that wait for the sum. -/
inductive Supplied : (before : Nat) → List Token → (after sums : Nat) → Prop
  | nil {before} : Supplied before [] before 0
  | operand (operand : Operand) {before tokens after sums} (h : Supplied before tokens after sums) :
      Supplied before (tokens ++ [operand.token]) (after + 1) sums
  | sum (op : SumOperator) {before tokens after sums} (h : Supplied before tokens after sums) :
      Supplied before (tokens ++ [.operator op.1]) after (sums + 1)
  /-- A product or power takes any value from the stack and the operand behind it. -/
  | bound {op : Operator} (hop : op.precedence ≠ .sum) (operand : Operand)
      {before tokens after sums} (h : Supplied before tokens (after + 1) sums) :
      Supplied before (tokens ++ [.operator op, operand.token]) (after + 1) sums
  /-- A group sums its own operators, but with any values from the stack. -/
  | group {before tokens middle sums inner left signs} (h : Supplied before tokens middle sums)
      (hi : Supplied middle inner (left + 1 + signs) signs) :
      Supplied before (tokens ++ .leftParen :: (inner ++ [.rightParen])) (left + 1) sums
  | productGroup (op : ProductOperator) {before tokens middle sums inner left signs}
      (h : Supplied before tokens middle sums)
      (hi : Supplied middle inner (left + 2 + signs) signs) :
      Supplied before (tokens ++ .operator op.1 :: .leftParen :: (inner ++ [.rightParen]))
        (left + 1) sums

/-- Some tokens leave one value when they are summed. A caret at their end takes
the last two values. -/
def Solvable (tokens : List Token) : Prop :=
  ∃ sums, Supplied 0 tokens (sums + 1) sums ∨
    ∃ front, tokens = front ++ [.operator .pow] ∧ Supplied 0 front (sums + 2) sums

/-- A group is read when its inner tokens leave a sum. -/
theorem Shape.steps_group {inner rest : List Token} {middle count : Nat} {signs : List SumOperator}
    {waiting : List Waiting} {after : Shape}
    (hi : Shape.Steps (inner ++ []) (.rightParen :: rest) ⟨middle, .group :: waiting⟩
      ⟨count + 1 + signs.length, waitingSums signs ++ .group :: waiting⟩)
    (hs : Shape.Settles ⟨count + 1, waiting⟩ after) :
    Shape.Steps (.leftParen :: (inner ++ [.rightParen])) rest ⟨middle, waiting⟩ after := by
  rw [List.append_nil] at hi
  have hl : Shape.Step [.leftParen] ((inner ++ [.rightParen]) ++ rest) ⟨middle, waiting⟩
      ⟨middle, .group :: waiting⟩ := .leftParen
  exact .cons hl (.append hi (Shape.Step.rightParen signs rfl hs).single)

/-- Supplied tokens and the powers behind them are read over any quiet stack.
The powers are read along because a product in front of them waits for them. -/
theorem Supplied.exists_steps {before after sums : Nat} {tokens : List Token}
    (h : Supplied before tokens after sums) {tail rest : List Token} {waiting : List Waiting}
    {last : Nat} (hq : Quiet waiting) (ht : Tail tail rest after last) :
    ∃ signs : List SumOperator, signs.length = sums ∧
      Shape.Steps (tokens ++ tail) rest ⟨before, waiting⟩
        ⟨last, waitingSums signs ++ waiting⟩ := by
  induction h generalizing tail rest waiting last with
  | nil => exact ⟨[], rfl, ht.steps hq⟩
  | @operand operand before tokens after sums h ih =>
      obtain ⟨signs, hl, hs⟩ := ih hq (.none (noPower_operand operand (tail ++ rest)))
      refine ⟨signs, hl, ?_⟩
      rw [List.append_nil] at hs
      rw [List.append_assoc]
      exact hs.append (.cons (Shape.Step.operand operand) (ht.steps (quiet_sums signs hq)))
  | @sum op before tokens after sums h ih =>
      obtain ⟨signs, hl, hs⟩ := ih hq (.none (noPower_operator op.ne_pow (tail ++ rest)))
      refine ⟨op :: signs, congrArg Nat.succ hl, ?_⟩
      rw [List.append_nil] at hs
      rw [List.append_assoc]
      exact hs.append (.cons (Shape.Step.sum op) (ht.steps (quiet_sums (op :: signs) hq)))
  | @bound op hop operand before tokens after sums h ih =>
      by_cases hpow : op = .pow
      · subst hpow
        rw [List.append_assoc]
        exact ih hq (ht.cons operand)
      · rcases Operator.sum_or_product hpow with ⟨sum, rfl⟩ | ⟨product, rfl⟩
        · exact absurd sum.2 hop
        · obtain ⟨signs, hl, hs⟩ := ih hq
            (.none (noPower_operator product.ne_pow (operand.token :: tail ++ rest)))
          refine ⟨signs, hl, ?_⟩
          rw [List.append_nil] at hs
          rw [List.append_assoc]
          exact hs.append (ht.steps_product product operand)
  | @group before tokens middle sums inner left signs h hi ih ihi =>
      have hn : NoPower ((.leftParen :: (inner ++ [.rightParen]) ++ tail) ++ rest) := nofun
      have hni : NoPower (.rightParen :: (tail ++ rest)) := nofun
      obtain ⟨outer, hl, hs⟩ := ih hq (.none hn)
      obtain ⟨inside, rfl, hsi⟩ := ihi (quiet_group (waitingSums outer ++ waiting)) (.none hni)
      have hg := Shape.steps_group hsi (.quiet (quiet_sums outer hq))
      refine ⟨outer, hl, ?_⟩
      rw [List.append_nil] at hs
      rw [List.append_assoc]
      exact hs.append (hg.append (ht.steps (quiet_sums outer hq)))
  | @productGroup op before tokens middle sums inner left signs h hi ih ihi =>
      have hn : NoPower (([.operator op.1] ++ (.leftParen :: (inner ++ [.rightParen]) ++ tail)) ++
          rest) := noPower_operator op.ne_pow _
      have hni : NoPower (.rightParen :: (tail ++ rest)) := nofun
      obtain ⟨outer, hl, hs⟩ := ih hq (.none hn)
      obtain ⟨inside, rfl, hsi⟩ :=
        ihi (quiet_group (.operator op.1 :: (waitingSums outer ++ waiting))) (.none hni)
      have hg := Shape.steps_group hsi (.product op)
      refine ⟨outer, hl, ?_⟩
      rw [List.append_nil] at hs
      rw [List.append_assoc]
      exact hs.append (.cons (Shape.Step.productWaits op rfl)
        (hg.append (ht.steps (quiet_sums outer hq))))

/-- What is solvable can be read, and leaves one value more than it has to sum. -/
theorem Solvable.exists_steps {tokens : List Token} (h : Solvable tokens) :
    ∃ signs : List SumOperator,
      Shape.Steps tokens [] ⟨0, []⟩ ⟨signs.length + 1, waitingSums signs⟩ := by
  obtain ⟨sums, h | ⟨front, rfl, h⟩⟩ := h
  · have hn : NoPower [] := nofun
    obtain ⟨signs, rfl, hs⟩ := h.exists_steps quiet_nil (.none hn)
    rw [List.append_nil, List.append_nil] at hs
    exact ⟨signs, hs⟩
  · obtain ⟨signs, rfl, hs⟩ := h.exists_steps quiet_nil (.hanging [])
    rw [List.append_nil] at hs
    exact ⟨signs, hs⟩

end Reckoner
