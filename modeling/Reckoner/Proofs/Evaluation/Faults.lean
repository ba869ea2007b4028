import Reckoner.Proofs.Evaluation.Reading

/-! # The errors of an evaluation

Which errors an operation can raise, for any kind of error that takes in those
of its parts. An evaluation that fails does so in a step that some reading
leads to, in the last sum, or because values are left over. -/

namespace Reckoner

/-- The place behind a product or a power, when no operand stands there. -/
inductive LacksOperand : List Token → Nat → Prop
  | intro (front : List Token) {op : Operator} {rest : List Token} (hop : op.precedence ≠ .sum)
      (hn : ∀ next ∈ rest.head?, next.isOperand = false) :
      LacksOperand (front ++ .operator op :: rest) (front.length + 1)

theorem LacksOperand.append_left (front : List Token) {tokens : List Token} {place : Nat}
    (h : LacksOperand tokens place) : LacksOperand (front ++ tokens) (front.length + place) := by
  obtain ⟨inner, hop, hn⟩ := h
  rw [← List.append_assoc, ← Nat.add_assoc, ← List.length_append]
  exact .intro (front ++ inner) hop hn

/-- The exponent that a chain misses lies behind all of its tokens. -/
theorem PowerChain.lacksOperand {tokens : List Token} (hm : (ofTokens tokens).missing = true) :
    LacksOperand (.operator .pow :: tokens) ((ofTokens tokens).size + 1) := by
  fun_induction ofTokens tokens with
  | case1 => cases hm
  | case2 token hop after chain ih =>
      have hlacks := (ih hm).append_left [.operator .pow, token]
      have hsize : [.operator .pow, token].length + (chain.size + 1) =
          (token :: chain.operands).length + (chain.carets + 1) + 1 := by
        simp only [size, List.length_cons, List.length_nil]
        omega
      rwa [hsize] at hlacks
  | case3 => cases hm
  | case4 token rest hop =>
      refine .intro [] (by decide) ?_
      intro next hnext
      obtain rfl : token = next := Option.some.inj hnext
      simpa using hop

namespace Run

variable {α β : Type} {kind : EvalError → Prop} {policy : NamePolicy} {position : Nat}

/-- Every error of a computation is of some kind. -/
def Raises (kind : EvalError → Prop) (computation : Run α) : Prop :=
  ∀ machine fault final, computation.run machine = .error fault final → kind fault

theorem Raises.pure (a : α) : Raises kind (pure a : Run α) := nofun

theorem Raises.throw {fault : EvalError} (hk : kind fault) :
    Raises kind (throw fault : Run α) := by
  intro machine fault' final h
  cases h
  exact hk

theorem Raises.bind {first : Run α} {next : α → Run β} (hf : Raises kind first)
    (hn : ∀ a, Raises kind (next a)) : Raises kind (first >>= next) := by
  intro machine fault final h
  rcases bind_eq_error_iff.mp h with h | ⟨a, middle, _, h⟩
  · exact hf _ _ _ h
  · exact hn a _ _ _ h

theorem raises_get : Raises kind (get : Run Machine) := nofun

theorem raises_set (machine : Machine) : Raises kind (set machine : Run PUnit) := nofun

theorem raises_record (operation : String) (result : Float) :
    Raises kind (record operation result) := nofun

theorem raises_pushValue (value : Float) : Raises kind (pushValue value) := nofun

theorem raises_pushWaiting (entry : Waiting) : Raises kind (pushWaiting entry) := nofun

theorem raises_dropWaiting : Raises kind dropWaiting := nofun

theorem raises_takeValue (hv : kind .noValue) : Raises kind takeValue := by
  refine raises_get.bind ?_
  intro machine
  cases machine.values.pop? with
  | none => exact .throw hv
  | some popped =>
      refine (raises_set _).bind ?_
      intro _
      exact .pure _

theorem raises_readName (hu : ∀ name, kind (.unbound name)) (name : String) :
    Raises kind (readName policy name) := by
  refine raises_get.bind ?_
  intro machine
  cases machine.vars.value? name with
  | some value => exact .pure _
  | none =>
      cases policy with
      | refuse => exact .throw (hu name)
      | declare =>
          refine (raises_set _).bind ?_
          intro _
          exact .pure _

theorem raises_readOperand (hv : kind .noValue) (hu : ∀ name, kind (.unbound name))
    (token : Token) : Raises kind (readOperand policy token) := by
  cases token with
  | number value => exact .pure _
  | identifier name => exact raises_readName hu name
  | _ => exact .throw hv

theorem raises_applyTop (hv : kind .noValue) (op : Operator) (right : Float) :
    Raises kind (applyTop op right) := by
  refine (raises_takeValue hv).bind ?_
  intro left
  refine (raises_record _ _).bind ?_
  intro _
  exact raises_pushValue _

theorem raises_settleProduct (hv : kind .noValue) : Raises kind settleProduct := by
  refine raises_get.bind ?_
  intro machine
  split
  · split
    · refine raises_dropWaiting.bind ?_
      intro _
      refine (raises_takeValue hv).bind ?_
      intro right
      exact raises_applyTop hv _ right
    · exact .pure _
  · exact .pure _

theorem raises_forM {items : List α} {action : α → Run PUnit} (ha : ∀ a, Raises kind (action a)) :
    Raises kind (items.forM action) := by
  induction items with
  | nil => exact .pure _
  | cons item items ih =>
      refine (ha item).bind ?_
      intro _
      exact ih

theorem raises_raise (hv : kind .noValue) (count : Nat) : Raises kind (raise count) := by
  induction count with
  | zero => exact .pure _
  | succ count ih =>
      refine (raises_takeValue hv).bind ?_
      intro exponent
      refine (raises_takeValue hv).bind ?_
      intro base
      refine raises_dropWaiting.bind ?_
      intro _
      refine (raises_record _ _).bind ?_
      intro _
      refine (raises_pushValue _).bind ?_
      intro _
      exact ih

theorem raises_takeChain (hv : kind .noValue) (hu : ∀ name, kind (.unbound name))
    (chain : PowerChain)
    (hm : chain.missing = true → kind (.operandExpected (position + 1 + chain.size))) :
    Raises kind (takeChain policy position chain) := by
  have hr : ∀ operand, Raises kind (do pushValue (← readOperand policy operand)) := by
    intro operand
    refine (raises_readOperand hv hu operand).bind ?_
    intro value
    exact raises_pushValue value
  refine (raises_forM hr).bind ?_
  intro _
  refine (raises_forM raises_pushWaiting).bind ?_
  intro _
  split
  · exact .throw (hm ‹_›)
  · exact raises_raise hv _

theorem raises_takeProduct (hv : kind .noValue) (hu : ∀ name, kind (.unbound name))
    (op : Operator) (tokens : List Token)
    (hm : (∀ next ∈ tokens.head?, next.isOperand = false) →
      kind (.operandExpected (position + 1))) :
    Raises kind (takeProduct policy position op tokens) := by
  cases tokens with
  | nil => exact .throw (hm nofun)
  | cons token tokens =>
      rw [takeProduct]
      split
      · refine (raises_readOperand hv hu token).bind ?_
        intro right
        refine (raises_applyTop hv op right).bind ?_
        intro _
        exact .pure _
      · rename_i hop
        refine .throw (hm ?_)
        intro next hnext
        obtain rfl : token = next := Option.some.inj hnext
        simpa using hop

section Step

variable {token : Token} {tokens : List Token} (hv : kind .noValue)
  (hu : ∀ name, kind (.unbound name))
  (ho : ∀ place, LacksOperand (token :: tokens) place → kind (.operandExpected (position + place)))
  (hm : token = .assign → kind (.misplacedAssign position))

include hv hu ho hm

/-- A step raises the errors of its operands, unless it takes a sum. -/
theorem raises_step (ht : token ≠ .rightParen) :
    Raises kind (step policy position token tokens) := by
  cases token with
  | number value =>
      refine (raises_pushValue value).bind ?_
      intro _
      exact .pure _
  | identifier name =>
      refine (raises_readName hu name).bind ?_
      intro value
      refine (raises_pushValue value).bind ?_
      intro _
      exact .pure _
  | leftParen =>
      refine (raises_pushWaiting _).bind ?_
      intro _
      exact .pure _
  | rightParen => exact absurd rfl ht
  | assign => exact .throw (hm rfl)
  | operator op =>
      by_cases hp : op = .pow
      · subst hp
        refine (raises_pushWaiting _).bind ?_
        intro _
        refine (raises_takeChain hv hu _ ?_).bind ?_
        · intro hmissing
          have hplace := ho _ (PowerChain.lacksOperand hmissing)
          rwa [Nat.add_comm _ 1, ← Nat.add_assoc] at hplace
        intro _
        refine (raises_settleProduct hv).bind ?_
        intro _
        exact .pure _
      · rw [step]
        · refine raises_get.bind ?_
          intro machine
          simp only
          split
          · rename_i htaken
            simp only [Bool.and_eq_true, beq_iff_eq] at htaken
            have hsum : op.precedence ≠ .sum := by
              rw [htaken.1.2]
              nofun
            exact raises_takeProduct hv hu op tokens fun hn => ho 1 (.intro [] hsum hn)
          · refine (raises_pushWaiting _).bind ?_
            intro _
            exact .pure _
        · exact hp

variable (kind) in
/-- A step fails as the sum that it takes, or with an error of its own. -/
theorem kind_of_step_error {machine final : Machine} {fault : EvalError}
    (h : (step policy position token tokens).run machine = .error fault final) :
    gather .parenthesis [] machine.values.items machine.waiting.items = .error fault ∨
      kind fault := by
  by_cases ht : token = .rightParen
  · subst ht
    rw [step, bind_eq_error_iff] at h
    rcases h with h | ⟨total, middle, _, h⟩
    · exact .inl (gather_of_takeSum_error h)
    · have hr : Raises kind (do
          pushValue total
          settleProduct
          return (⟨tokens, List.suffix_refl tokens⟩ : Rest tokens)) := by
        refine (raises_pushValue total).bind ?_
        intro _
        refine (raises_settleProduct hv).bind ?_
        intro _
        exact .pure _
      exact .inr (hr _ _ _ h)
  · exact .inr (raises_step hv hu ho hm ht _ _ _ h)

end Step

end Run

variable {policy : NamePolicy} {start : Nat}

/-- The three ways in which an expression fails. -/
theorem Run.expression_eq_error {tokens : List Token} {machine final : Machine} {fault : EvalError}
    (h : (expression policy start tokens).run machine = .error fault final) :
    (∃ reading token tokens', Reading.Leads policy start ⟨[], tokens, machine⟩ reading ∧
      reading.rest = token :: tokens' ∧
      (step policy (start + reading.done.length) token tokens').run reading.machine =
        .error fault final) ∨
    (∃ middle, Reading.Leads policy start ⟨[], tokens, machine⟩ ⟨tokens, [], middle⟩ ∧
      (takeSum .line).run middle = .error fault final) ∨ fault = .adjacentOperands := by
  rw [expression, bind_eq_error_iff] at h
  rcases h with h | ⟨_, middle, hr, h⟩
  · exact .inl (Reading.exists_step_of_error [] h)
  · right
    have hl := (Reading.readTokens_eq_ok_iff []).mp hr
    rcases bind_eq_error_iff.mp h with h | ⟨total, middle', hs, h⟩
    · exact .inl ⟨middle, hl, h⟩
    · right
      rw [bind_of_ok get_apply] at h
      split at h
      · cases h
      · cases h
        rfl

/-- An expression fails in the step that its reading cannot take. -/
theorem Run.expression_of_step_error {tokens tokens' : List Token} {token : Token}
    {machine final : Machine} {reading : Reading} {fault : EvalError}
    (hl : Reading.Leads policy start ⟨[], tokens, machine⟩ reading)
    (hr : reading.rest = token :: tokens')
    (h : (step policy (start + reading.done.length) token tokens').run reading.machine =
      .error fault final) :
    (expression policy start tokens).run machine = .error fault final := by
  have he := hl.remainder_eq.trans (Reading.remainder_of_step_error hr h)
  simp only [Reading.remainder, List.length_nil, Nat.add_zero] at he
  rw [expression, bind_of_error he]

theorem Run.expression_of_takeSum_error {tokens : List Token} {machine middle final : Machine}
    {fault : EvalError} (hl : Reading.Leads policy start ⟨[], tokens, machine⟩ ⟨tokens, [], middle⟩)
    (h : (takeSum .line).run middle = .error fault final) :
    (expression policy start tokens).run machine = .error fault final := by
  have hr := (Reading.readTokens_eq_ok_iff []).mpr hl
  rw [List.length_nil, Nat.add_zero] at hr
  rw [expression, bind_of_ok hr, bind_of_error h]

end Reckoner
