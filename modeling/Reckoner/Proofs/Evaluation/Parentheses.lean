import Reckoner.Proofs.Evaluation.Accounting
import Reckoner.Proofs.Evaluation.Alternation
import Reckoner.Proofs.Evaluation.Tail

/-! # Faults of parentheses

Lists that alternate can only fail at a parenthesis. While they are read, every
operator that waits lacks just its right operand, and only a group may lie on a
product. A closing parenthesis then finds its group, or finds that there is none. -/

namespace Reckoner

/-- What waits, with a value for each operator, while a value is awaited. -/
inductive Awaits : Nat → List Waiting → Prop
  | line : Awaits 0 []
  | group {count waiting} (h : Awaits count waiting) : Awaits count (.group :: waiting)
  | operator {op : Operator} (hop : op ≠ .pow) {count waiting} (hq : Quiet waiting)
      (h : Awaits count waiting) : Awaits (count + 1) (.operator op :: waiting)

namespace Awaits

variable {count : Nat} {waiting : List Waiting}

/-- Above the innermost group only sums wait, unless a product lacks its operand. -/
theorem exists_signs (h : Awaits count waiting) (hq : Quiet waiting) :
    ∃ (signs : List SumOperator) (count' : Nat) (inner : List Waiting),
      count = count' + signs.length ∧ waiting = waitingSums signs ++ inner ∧
        (count' = 0 ∧ inner = [] ∨ ∃ below, inner = .group :: below ∧ Awaits count' below) := by
  induction h with
  | line => exact ⟨[], 0, [], rfl, rfl, .inl ⟨rfl, rfl⟩⟩
  | @group count below h _ => exact ⟨[], count, _, rfl, rfl, .inr ⟨below, rfl, h⟩⟩
  | @operator op hop count below hb h ih =>
      obtain ⟨signs, count', inner, rfl, rfl, hi⟩ := ih hb
      exact ⟨⟨op, hq op rfl⟩ :: signs, count', inner, rfl, rfl, hi⟩

/-- A value that is produced where it was awaited is the right operand of a product. -/
theorem exists_settles (h : Awaits count waiting) :
    ∃ count' waiting', Shape.Settles ⟨count + 1, waiting⟩ ⟨count' + 1, waiting'⟩ ∧
      Quiet waiting' ∧ Awaits count' waiting' := by
  cases h with
  | line => exact ⟨0, [], .quiet quiet_nil, quiet_nil, .line⟩
  | @group count below h =>
      exact ⟨count, _, .quiet (quiet_group below), quiet_group below, .group h⟩
  | @operator op hop count below hq h =>
      rcases Operator.sum_or_product hop with ⟨sum, rfl⟩ | ⟨product, rfl⟩
      · exact ⟨_, _, .quiet (quiet_sum sum below), quiet_sum sum below, .operator hop hq h⟩
      · exact ⟨count, below, .product product, hq, h⟩

end Awaits

/-- The shapes of the stacks at a place of an alternating list. -/
inductive Place.Holds : Place → Shape → Prop
  | value {count waiting} (hq : Quiet waiting) (ha : Awaits count waiting) :
      Holds .value ⟨count, waiting⟩
  | link {count waiting} (hq : Quiet waiting) (ha : Awaits count waiting) :
      Holds .link ⟨count + 1, waiting⟩

/-- The sums behind the innermost group that is open, or behind the start of the line. -/
theorem Place.Holds.exists_signs {shape : Shape} (h : Place.link.Holds shape) :
    ∃ (signs : List SumOperator) (count : Nat) (inner : List Waiting),
      shape = ⟨count + 1 + signs.length, waitingSums signs ++ inner⟩ ∧
        (count = 0 ∧ inner = [] ∨ ∃ below, inner = .group :: below ∧ Awaits count below) := by
  cases h with
  | link hq ha =>
      obtain ⟨signs, count, inner, rfl, rfl, hi⟩ := ha.exists_signs hq
      refine ⟨signs, count, inner, ?_, hi⟩
      rw [Nat.add_right_comm]

/-- Nothing more can be read: there are no tokens, or a parenthesis that closes nothing. -/
def Shape.AtEnd (tokens : List Token) (shape : Shape) : Prop :=
  Place.link.Holds shape ∧
    (tokens = [] ∨ ∃ tail, tokens = .rightParen :: tail ∧ .group ∉ shape.waiting)

/-- Some steps lead to a further place of the list. -/
def Shape.Advances (tokens : List Token) (before : Shape) : Prop :=
  ∃ place piece rest after, tokens = piece ++ rest ∧ piece ≠ [] ∧ Alternates place rest ∧
    Steps piece rest before after ∧ place.Holds after

namespace Shape

variable {tokens : List Token} {count : Nat} {waiting : List Waiting}

theorem advances_value (h : Alternates .value tokens) (hq : Quiet waiting)
    (ha : Awaits count waiting) : Advances tokens ⟨count, waiting⟩ := by
  cases h with
  | @leftParen rest ht =>
      exact ⟨.value, [.leftParen], rest, _, rfl, by simp, ht, Step.leftParen.single,
        .value (quiet_group waiting) (.group ha)⟩
  | @operand operand rest ht =>
      exact ⟨.link, [operand.token], rest, _, rfl, by simp, ht, (Step.operand operand).single,
        .link hq ha⟩

/-- A product is read together with its right side, as far as no group delays that. -/
theorem advances_product (op : ProductOperator) (h : Alternates .value tokens) (hq : Quiet waiting)
    (ha : Awaits count waiting) : Advances (.operator op.1 :: tokens) ⟨count + 1, waiting⟩ := by
  have hw : Awaits (count + 1) (.operator op.1 :: waiting) := .operator op.ne_pow hq ha
  cases h with
  | @leftParen rest ht =>
      have hs : Steps ([.operator op.1] ++ [.leftParen]) rest ⟨count + 1, waiting⟩
          ⟨count + 1, .group :: .operator op.1 :: waiting⟩ :=
        .append (Step.productWaits op rfl).single Step.leftParen.single
      exact ⟨.value, _, rest, _, rfl, by simp, ht, hs, .value (quiet_group _) (.group hw)⟩
  | @operand operand tokens ht =>
      obtain ⟨exponents, rest, rfl, hn, hr⟩ := ht.exists_powers
      have hs : Steps ([.operator op.1, operand.token] ++ powerTokens exponents) rest
          ⟨count + 1, waiting⟩ ⟨count + 1, waiting⟩ :=
        (Tail.powers exponents hn).steps_product op operand
      exact ⟨.link, _, rest, _, rfl, by simp, hr, hs, .link hq ha⟩

/-- Behind a value only a parenthesis can put an end to the reading. -/
theorem advances_or_atEnd (h : Alternates .link tokens) (hq : Quiet waiting)
    (ha : Awaits count waiting) :
    Advances tokens ⟨count + 1, waiting⟩ ∨ AtEnd tokens ⟨count + 1, waiting⟩ := by
  have hh : Place.link.Holds ⟨count + 1, waiting⟩ := .link hq ha
  cases h with
  | nil => exact .inr ⟨hh, .inl rfl⟩
  | @rightParen rest ht =>
      obtain ⟨signs, count', inner, hb, hi⟩ := hh.exists_signs
      rcases hi with ⟨rfl, rfl⟩ | ⟨below, rfl, hbelow⟩
      · right
        refine ⟨hh, .inr ⟨rest, rfl, ?_⟩⟩
        rw [hb, List.append_nil]
        exact group_not_mem_sums signs
      · left
        obtain ⟨count'', waiting', hs, hq', ha'⟩ := hbelow.exists_settles
        exact ⟨.link, [.rightParen], rest, _, rfl, by simp, ht,
          (Step.rightParen signs hb hs).single, .link hq' ha'⟩
  | @operator op hop rest ht =>
      left
      rcases Operator.sum_or_product hop with ⟨sum, rfl⟩ | ⟨product, rfl⟩
      · exact ⟨.value, [.operator sum.1], rest, _, rfl, by simp, ht, (Step.sum sum).single,
          .value (quiet_sum sum waiting) (.operator hop hq ha)⟩
      · exact advances_product product ht hq ha
  | @power exponent tokens ht =>
      left
      obtain ⟨exponents, rest, rfl, hn, hr⟩ := ht.exists_powers
      exact ⟨.link, powerTokens (exponent :: exponents), rest, _, rfl, by simp, hr,
        (Tail.powers _ hn).steps hq, hh⟩

/-- An alternating list is read to one of its ends from every shape that its place holds. -/
theorem exists_atEnd {place : Place} {before : Shape} (h : Alternates place tokens)
    (hb : place.Holds before) :
    ∃ front rest after, tokens = front ++ rest ∧ Steps front rest before after ∧
      AtEnd rest after := by
  -- Steps read several tokens at once, so the induction is on the length.
  induction hl : tokens.length using Nat.strongRecOn generalizing place tokens before with
  | ind length ih =>
      have hcases : Advances tokens before ∨ AtEnd tokens before := by
        cases hb with
        | value hq ha => exact .inl (advances_value h hq ha)
        | link hq ha => exact advances_or_atEnd h hq ha
      rcases hcases with ⟨place, piece, rest, middle, rfl, hne, hr, hs, hm⟩ | hend
      · have hlt : rest.length < length := by
          have hp := List.length_pos_of_ne_nil hne
          rw [List.length_append] at hl
          omega
        obtain ⟨front, rest, after, rfl, hf, hend⟩ := ih rest.length hlt hr hm rfl
        refine ⟨piece ++ front, rest, after, ?_, hs.append hf, hend⟩
        rw [List.append_assoc]
      · exact ⟨[], tokens, before, rfl, .nil, hend⟩

end Shape

theorem gather_unopened {signs : List SumOperator} {values : List Float}
    (hl : signs.length < values.length) :
    gather .parenthesis [] values (waitingSums signs) = .error .unopenedParen := by
  obtain ⟨terms, first, left, _, _, hg⟩ := exists_gather_sums .parenthesis hl []
  rw [List.append_nil] at hg
  rw [hg]
  rfl

theorem gather_unclosed {signs : List SumOperator} {values : List Float}
    (hl : signs.length < values.length) (below : List Waiting) :
    gather .line [] values (waitingSums signs ++ .group :: below) = .error .unclosedParen := by
  obtain ⟨terms, first, left, _, _, hg⟩ := exists_gather_sums .line hl (.group :: below)
  rw [hg]
  rfl

namespace Run

variable {policy : NamePolicy} {start : Nat} {tokens : List Token} {vars : Variables}
variable {trace : Trace} {machine final : Machine}

variable (start trace) in
/-- Reading an alternating list leads to one of its ends. -/
theorem exists_leads_of_alternates (h : Alternates .value tokens)
    (hr : AllReadable policy vars tokens) :
    ∃ front rest machine, tokens = front ++ rest ∧
      Reading.Leads policy start ⟨[], tokens, ⟨.empty, .empty, vars, trace⟩⟩
        ⟨front, rest, machine⟩ ∧
      Shape.AtEnd rest machine.shape := by
  obtain ⟨front, rest, after, rfl, hs, hend⟩ := Shape.exists_atEnd h (.value quiet_nil .line)
  obtain ⟨values, hl, ht⟩ := hs.exists_values policy vars.read nofun [] rfl
  obtain ⟨trace', ht⟩ := ht start [] vars trace rfl (allReadable_append.mp hr).1
  refine ⟨front, rest, _, rfl, ht, ?_⟩
  have hshape : after = ⟨values.length, after.waiting⟩ := by rw [hl]
  rw [hshape] at hend
  exact hend

/-- A closing parenthesis without a group fails once the sums in front of it are gathered. -/
theorem step_rightParen_unopened (policy : NamePolicy) (position : Nat) (tokens : List Token)
    (hh : Place.link.Holds machine.shape) (hg : .group ∉ machine.waiting.items) :
    ∃ final, (step policy position .rightParen tokens).run machine =
      .error .unopenedParen final := by
  obtain ⟨signs, count, inner, hs, ⟨rfl, rfl⟩ | ⟨below, rfl, _⟩⟩ := hh.exists_signs
  · obtain ⟨hl, hw⟩ := Shape.mk.inj hs
    have hgather : gather .parenthesis [] machine.values.items machine.waiting.items =
        .error .unopenedParen := by
      rw [hw, List.append_nil]
      apply gather_unopened
      rw [Stack.size] at hl
      omega
    exact ⟨_, by rw [step, bind_of_error (takeSum_of_error hgather)]⟩
  · rw [(Shape.mk.inj hs).2] at hg
    simp at hg

/-- What is left at the end of an alternating list has a sum, or a group that is still open. -/
theorem takeSum_line_of_holds (hh : Place.link.Holds machine.shape) :
    machine.shape.depth = 0 ∧ (∃ total final, (takeSum .line).run machine = .ok total final ∧
      final.values.items = []) ∨
    0 < machine.shape.depth ∧ ∃ final, (takeSum .line).run machine =
      .error .unclosedParen final := by
  obtain ⟨signs, count, inner, hs, ⟨rfl, rfl⟩ | ⟨below, rfl, _⟩⟩ := hh.exists_signs
  · left
    rw [Nat.zero_add, Nat.add_comm, List.append_nil] at hs
    constructor
    · rw [hs]
      exact Shape.depth_line signs
    · exact takeSum_line_of_shape hs
  · right
    obtain ⟨hl, hw⟩ := Shape.mk.inj hs
    have hgather : gather .line [] machine.values.items machine.waiting.items =
        .error .unclosedParen := by
      rw [hw]
      apply gather_unclosed
      rw [Stack.size] at hl
      omega
    refine ⟨?_, _, takeSum_of_error hgather⟩
    rw [hs, Shape.depth_sums, Shape.depth_group]
    have hd : 0 ≤ Shape.depth ⟨count + 1 + signs.length, below⟩ := Int.natCast_nonneg _
    omega

end Run

/-- The tokens close a parenthesis that was not opened. -/
def Overclosed (tokens : List Token) : Prop :=
  ∃ front, front <+: tokens ∧ front.count .leftParen < front.count .rightParen

/-- How an alternating list fails, or that it does not, is told by its parentheses. -/
theorem Run.expression_of_alternates {policy : NamePolicy} (start : Nat) {tokens : List Token}
    {vars : Variables} (trace : Trace) (h : Alternates .value tokens)
    (hr : AllReadable policy vars tokens) :
    (Overclosed tokens ∧ ∃ final, (expression policy start tokens).run
      ⟨.empty, .empty, vars, trace⟩ = .error .unopenedParen final) ∨
    (¬ Overclosed tokens ∧ 0 < depth tokens ∧ ∃ final, (expression policy start tokens).run
      ⟨.empty, .empty, vars, trace⟩ = .error .unclosedParen final) ∨
    (¬ Overclosed tokens ∧ depth tokens = 0 ∧ ∃ total final, (expression policy start tokens).run
      ⟨.empty, .empty, vars, trace⟩ = .ok total final) := by
  obtain ⟨front, rest, machine, htokens, hl, hh, hend⟩ :=
    exists_leads_of_alternates start trace h hr
  have ha := accounted_of_leads hl
  rcases hend with rfl | ⟨tail, rfl, hg⟩
  · obtain rfl : tokens = front := by rw [htokens, List.append_nil]
    have ho : ¬ Overclosed tokens := by
      rintro ⟨first, hf, hd⟩
      have hn := ha.depth_nonneg first hf
      simp only [depth] at hn
      omega
    rcases takeSum_line_of_holds hh with ⟨hd, total, final, hs, hv⟩ | ⟨hd, final, hs⟩
    · exact .inr (.inr ⟨ho, ha.depth_eq.symm.trans hd, total, final,
        expression_eq_ok_iff.mpr ⟨machine, hl, hs, hv⟩⟩)
    · rw [ha.depth_eq] at hd
      exact .inr (.inl ⟨ho, hd, final, expression_of_takeSum_error hl hs⟩)
  · left
    obtain ⟨final, hs⟩ := step_rightParen_unopened policy (start + front.length) tail hh hg
    have hd : depth (front ++ [.rightParen]) < 0 := by
      have hz : machine.shape.depth = 0 := congrArg Int.ofNat (List.count_eq_zero.mpr hg)
      calc
        depth (front ++ [.rightParen]) = machine.shape.depth + depth [.rightParen] := by
          rw [depth_append, ha.depth_eq]
        _ = 0 + -1 := by rw [hz, depth_rightParen]
        _ < 0 := by decide
    refine ⟨⟨front ++ [.rightParen], ⟨tail, by rw [htokens]; simp⟩, ?_⟩, final,
      expression_of_step_error hl rfl hs⟩
    simp only [depth] at hd
    omega

/-- An operand and the parentheses that stand around it. -/
structure Item where
  opens : Nat
  operand : Operand
  closes : Nat

namespace Item

def tokens (item : Item) : List Token :=
  List.replicate item.opens .leftParen ++
    item.operand.token :: List.replicate item.closes .rightParen

theorem alternates_closes (closes : Nat) {rest : List Token} (hr : Alternates .link rest) :
    Alternates .link (List.replicate closes .rightParen ++ rest) := by
  induction closes with
  | zero => exact hr
  | succ closes ih => exact .rightParen ih

theorem alternates (item : Item) {rest : List Token} (hr : Alternates .link rest) :
    Alternates .value (item.tokens ++ rest) := by
  obtain ⟨opens, operand, closes⟩ := item
  induction opens with
  | zero => exact .operand operand (alternates_closes closes hr)
  | succ opens ih => exact .leftParen ih

/-- Items joined by operators. -/
def joined (first : Item) (rest : List (Operator × Item)) : List Token :=
  first.tokens ++ rest.flatMap fun link => .operator link.1 :: link.2.tokens

/-- Items alternate as long as no parenthesis opens behind a power. -/
theorem alternates_joined (first : Item) {rest : List (Operator × Item)}
    (hp : ∀ link ∈ rest, link.1 = .pow → link.2.opens = 0) :
    Alternates .value (joined first rest) := by
  apply first.alternates
  induction rest with
  | nil => exact .nil
  | cons link rest ih =>
      obtain ⟨hlink, hrest⟩ := List.forall_mem_cons.mp hp
      obtain ⟨op, item⟩ := link
      rw [List.flatMap_cons, List.cons_append]
      by_cases hop : op = .pow
      · obtain ⟨opens, operand, closes⟩ := item
        obtain rfl : opens = 0 := hlink hop
        rw [hop]
        exact .power operand (alternates_closes closes (ih hrest))
      · exact .operator hop (item.alternates (ih hrest))

end Item

/-- A line that is infix apart from its parentheses fails at the first one that
closes nothing, or else for one that is left open, or else has a value. -/
theorem evaluate_joined (target : Option String) (first : Item) (rest : List (Operator × Item))
    (vars : Variables) (trace : Trace) (hp : ∀ link ∈ rest, link.1 = .pow → link.2.opens = 0) :
    (Overclosed (Item.joined first rest) →
      (evaluate .declare (lineTokens target (Item.joined first rest)) vars trace).result =
        .error .unopenedParen) ∧
    (¬ Overclosed (Item.joined first rest) →
      ((Item.joined first rest).count .rightParen < (Item.joined first rest).count .leftParen →
        (evaluate .declare (lineTokens target (Item.joined first rest)) vars trace).result =
          .error .unclosedParen) ∧
      (¬ (Item.joined first rest).count .rightParen < (Item.joined first rest).count .leftParen →
        ∃ evaluation,
          (evaluate .declare (lineTokens target (Item.joined first rest)) vars trace).result =
            .ok evaluation)) := by
  have ha := Item.alternates_joined first hp
  generalize Item.joined first rest = tokens at ha ⊢
  have hr : Run.AllReadable .declare vars tokens := fun _ _ h => nomatch h
  rw [evaluate_lineTokens _ _ _ ha.ne_nil (scanned_lineTokens ha.ne_nil ha.assign_not_mem)]
  rcases Run.expression_of_alternates (offset target) trace ha hr with
    ⟨hover, final, he⟩ | ⟨hover, hd, final, he⟩ | ⟨hover, hd, total, final, he⟩
  · constructor
    · intro _
      exact conclude_eq_error_iff.mpr ⟨final, he⟩
    · intro hn
      exact absurd hover hn
  · constructor
    · intro h
      exact absurd h hover
    · intro _
      constructor
      · intro _
        exact conclude_eq_error_iff.mpr ⟨final, he⟩
      · intro hle
        simp only [depth] at hd
        omega
  · constructor
    · intro h
      exact absurd h hover
    · intro _
      constructor
      · intro hlt
        simp only [depth] at hd
        omega
      · intro _
        exact ⟨⟨total, target⟩, conclude_eq_ok_iff.mpr ⟨final, he, rfl⟩⟩

/-- The parentheses of `2) + (3` are as many on both sides, but the first one closes nothing. -/
theorem evaluate_joined_closed_before_opened :
    (evaluate .declare [.identifier "x", .assign, .number 2, .rightParen, .operator .add,
      .leftParen, .number 3] ⟨[]⟩ (.start false)).result = .error .unopenedParen := by
  have hp : ∀ link ∈ [(Operator.add, Item.mk 1 (.number 3) 0)],
      link.1 = .pow → link.2.opens = 0 := by simp
  have hover : Overclosed (Item.joined ⟨0, .number 2, 1⟩ [(.add, ⟨1, .number 3, 0⟩)]) :=
    ⟨[.number 2, .rightParen], ⟨[.operator .add, .leftParen, .number 3], rfl⟩, by decide⟩
  exact (evaluate_joined (some "x") ⟨0, .number 2, 1⟩ [(.add, ⟨1, .number 3, 0⟩)] ⟨[]⟩
    (.start false) hp).1 hover

end Reckoner
