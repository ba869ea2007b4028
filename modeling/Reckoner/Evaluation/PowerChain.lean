import Reckoner.Evaluation.Machine

/-! # Chains of powers

A caret is followed by operands joined by carets. The chain is taken off the
line whole and folded from the right. -/

namespace Reckoner

/-- The tokens after a caret, as far as they belong to its chain. -/
structure PowerChain where
  /-- The operands read, in order. -/
  operands : List Token
  /-- The number of carets after the one that opened the chain. -/
  carets : Nat
  /-- A token that is no operand follows a caret. -/
  missing : Bool
  rest : List Token
  deriving DecidableEq

namespace PowerChain

/-- The longest chain at the start of a list of tokens. -/
def ofTokens : List Token → PowerChain
  | [] => ⟨[], 0, false, []⟩
  | token :: rest =>
      if token.isOperand then
        match rest with
        | .operator .pow :: after =>
            let chain := ofTokens after
            { chain with operands := token :: chain.operands, carets := chain.carets + 1 }
        | _ => ⟨[token], 0, false, rest⟩
      else ⟨[], 0, true, token :: rest⟩

/-- The number of tokens of the chain. -/
def size (chain : PowerChain) : Nat := chain.operands.length + chain.carets

theorem length_rest (tokens : List Token) :
    (ofTokens tokens).size + (ofTokens tokens).rest.length = tokens.length := by
  fun_induction ofTokens tokens with
  | case1 => rfl
  | case2 token operand after chain ih =>
      simp only [size, List.length_cons, chain] at ih ⊢
      omega
  | case3 token rest operand noCaret =>
      simp only [size, List.length_cons, List.length_nil]; omega
  | case4 => simp [size]

theorem rest_suffix (tokens : List Token) : (ofTokens tokens).rest <:+ tokens := by
  fun_induction ofTokens tokens with
  | case1 => exact List.suffix_refl _
  | case2 token operand after chain ih =>
      exact (ih.trans (List.suffix_cons _ _)).trans (List.suffix_cons _ _)
  | case3 token rest operand noCaret => exact List.suffix_cons _ _
  | case4 => exact List.suffix_refl _

end PowerChain

namespace Run

/-- Folds waiting powers from the right, the last one first. -/
def raise : Nat → Run Unit
  | 0 => return ()
  | count + 1 => do
      let exponent ← takeValue
      let base ← takeValue
      dropWaiting
      let result := Operator.pow.apply base exponent
      record (Binary64.text base ++ " ^ " ++ Binary64.text exponent) result
      pushValue result
      raise count

/-- Reads the operands of a chain in order, then folds its powers. `position`
is that of the caret that opens the chain, which already waits. -/
def takeChain (policy : NamePolicy) (position : Nat) (chain : PowerChain) : Run Unit := do
  chain.operands.forM fun operand => do pushValue (← readOperand policy operand)
  (List.replicate chain.carets (Waiting.operator .pow)).forM pushWaiting
  if chain.missing then throw (.operandExpected (position + 1 + chain.size))
  raise (chain.carets + 1)

end Run
end Reckoner
