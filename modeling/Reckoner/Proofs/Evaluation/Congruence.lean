import Reckoner.Proofs.Evaluation.PowerChain

/-! # Two evaluations side by side

A relation between computations that holds of every single operation, and of two
sequences when it holds of their parts, holds of two evaluations of the same
tokens. -/

namespace Reckoner.Run

/-- A relation between computations under two policies that reads, writes and
failures keep. Names are read only from the known tokens, and what is done next
depends on the machine only through its stacks. -/
structure Congruence (policy policy' : NamePolicy) (known : List Token)
    (R : ∀ {α : Type}, Run α → Run α → Prop) : Prop where
  returns {α : Type} (a : α) : R (pure a) (pure a)
  throws {α : Type} {fault : EvalError} (hf : ∀ name, fault ≠ .unbound name) :
    R (throw fault : Run α) (throw fault)
  binds {α β : Type} {first first' : Run α} {next next' : α → Run β} (hf : R first first')
    (hn : ∀ a, R (next a) (next' a)) : R (first >>= next) (first' >>= next')
  gets {α : Type} {next next' : Machine → Run α} (hn : ∀ machine, R (next machine) (next' machine))
    (hs : ∀ machine vars trace, next { machine with vars, trace } = next machine)
    (hs' : ∀ machine vars trace, next' { machine with vars, trace } = next' machine) :
    R (get >>= next) (get >>= next')
  records (operation : String) (result : Float) :
    R (record operation result) (record operation result)
  pushesValue (value : Float) : R (pushValue value) (pushValue value)
  takesValue : R takeValue takeValue
  pushesWaiting (entry : Waiting) : R (pushWaiting entry) (pushWaiting entry)
  dropsWaiting : R dropWaiting dropWaiting
  takesSum (stop : SumEnd) : R (takeSum stop) (takeSum stop)
  readsName {name : String} (hm : .identifier name ∈ known) :
    R (readName policy name) (readName policy' name)

namespace Congruence

variable {policy policy' : NamePolicy} {known : List Token}
variable {R : ∀ {α : Type}, Run α → Run α → Prop} (h : Congruence policy policy' known R)
variable {tokens : List Token}

include h

theorem applyTop (op : Operator) (right : Float) :
    R (applyTop op right) (applyTop op right) := by
  refine h.binds h.takesValue ?_
  intro left
  refine h.binds (h.records _ _) ?_
  intro _
  exact h.pushesValue _

theorem settleProduct : R settleProduct settleProduct := by
  refine h.gets ?_ (fun _ _ _ => rfl) fun _ _ _ => rfl
  intro machine
  split
  · split
    · refine h.binds h.dropsWaiting ?_
      intro _
      refine h.binds h.takesValue ?_
      intro right
      exact h.applyTop _ right
    · exact h.returns _
  · exact h.returns _

theorem raise (count : Nat) : R (raise count) (raise count) := by
  induction count with
  | zero => exact h.returns _
  | succ count ih =>
      refine h.binds h.takesValue ?_
      intro exponent
      refine h.binds h.takesValue ?_
      intro base
      refine h.binds h.dropsWaiting ?_
      intro _
      refine h.binds (h.records _ _) ?_
      intro _
      refine h.binds (h.pushesValue _) ?_
      intro _
      exact ih

theorem readOperand {token : Token} (hm : token ∈ known) :
    R (readOperand policy token) (readOperand policy' token) := by
  cases token with
  | number value => exact h.returns value
  | identifier name => exact h.readsName hm
  | _ => exact h.throws nofun

theorem forM {α : Type} {items : List α} {action action' : α → Run PUnit}
    (ha : ∀ item ∈ items, R (action item) (action' item)) :
    R (items.forM action) (items.forM action') := by
  induction items with
  | nil => exact h.returns _
  | cons item items ih =>
      obtain ⟨hitem, hitems⟩ := List.forall_mem_cons.mp ha
      refine h.binds hitem ?_
      intro _
      exact ih hitems

theorem takeChain (position : Nat) {chain : PowerChain} (hs : chain.operands ⊆ known) :
    R (takeChain policy position chain) (takeChain policy' position chain) := by
  refine h.binds (h.forM ?_) ?_
  · intro operand hm
    refine h.binds (h.readOperand (hs hm)) ?_
    intro value
    exact h.pushesValue value
  · intro _
    refine h.binds (h.forM fun entry _ => h.pushesWaiting entry) ?_
    intro _
    split
    · exact h.throws nofun
    · exact h.raise _

theorem takeProduct (position : Nat) (op : Operator) (hs : tokens ⊆ known) :
    R (takeProduct policy position op tokens) (takeProduct policy' position op tokens) := by
  cases tokens with
  | nil => exact h.throws nofun
  | cons token tokens =>
      obtain ⟨hm, _⟩ := List.cons_subset.mp hs
      rw [Run.takeProduct, Run.takeProduct]
      split
      · refine h.binds (h.readOperand hm) ?_
        intro right
        refine h.binds (h.applyTop op right) ?_
        intro _
        exact h.returns _
      · exact h.throws nofun

theorem step (position : Nat) {token : Token} (hm : token ∈ known) (hs : tokens ⊆ known) :
    R (step policy position token tokens) (step policy' position token tokens) := by
  cases token with
  | number value =>
      refine h.binds (h.pushesValue value) ?_
      intro _
      exact h.returns _
  | identifier name =>
      refine h.binds (h.readsName hm) ?_
      intro value
      refine h.binds (h.pushesValue value) ?_
      intro _
      exact h.returns _
  | leftParen =>
      refine h.binds (h.pushesWaiting _) ?_
      intro _
      exact h.returns _
  | rightParen =>
      refine h.binds (h.takesSum .parenthesis) ?_
      intro total
      refine h.binds (h.pushesValue total) ?_
      intro _
      refine h.binds h.settleProduct ?_
      intro _
      exact h.returns _
  | assign => exact h.throws nofun
  | operator op =>
      by_cases hp : op = .pow
      · subst hp
        have hchain := List.Subset.trans (PowerChain.operands_subset tokens) hs
        refine h.binds (h.pushesWaiting _) ?_
        intro _
        refine h.binds (h.takeChain position hchain) ?_
        intro _
        refine h.binds h.settleProduct ?_
        intro _
        exact h.returns _
      · rw [Run.step, Run.step]
        · refine h.gets ?_ (fun _ _ _ => rfl) fun _ _ _ => rfl
          intro machine
          simp only
          split
          · exact h.takeProduct position op hs
          · refine h.binds (h.pushesWaiting _) ?_
            intro _
            exact h.returns _
        · exact hp
        · exact hp

theorem readTokens (position : Nat) (hs : tokens ⊆ known) :
    R (readTokens policy position tokens) (readTokens policy' position tokens) := by
  induction position, tokens using readTokens.induct with
  | case1 position =>
      rw [Run.readTokens, Run.readTokens]
      exact h.returns _
  | case2 position token tokens ih =>
      obtain ⟨hm, htokens⟩ := List.cons_subset.mp hs
      rw [Run.readTokens, Run.readTokens]
      refine h.binds (h.step position hm htokens) ?_
      rintro ⟨rest, hsuffix⟩
      exact ih rest hsuffix (List.Subset.trans hsuffix.subset htokens)

/-- Two evaluations of known tokens are related. -/
theorem expression (position : Nat) (hs : tokens ⊆ known) :
    R (expression policy position tokens) (expression policy' position tokens) := by
  refine h.binds (h.readTokens position hs) ?_
  intro _
  refine h.binds (h.takesSum .line) ?_
  intro total
  refine h.gets ?_ (fun _ _ _ => rfl) fun _ _ _ => rfl
  intro machine
  split
  · exact h.returns _
  · exact h.throws nofun

end Congruence
end Reckoner.Run
