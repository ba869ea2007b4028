import Reckoner.Evaluation.PowerChain
import Reckoner.Evaluation.Sum

/-! # Evaluating a list of tokens

The tokens are read once from left to right. Products are taken as soon as
both sides are known, powers as a chain from the right, and sums when their
group ends. A product whose right side is a group or a power waits for it. -/

namespace Reckoner

/-- The value of a line, and the name it was assigned to. -/
structure Evaluation where
  value : Float
  assigned : Option String
  deriving DecidableEq

/-- What an evaluation leaves behind, whether it succeeds or fails. -/
structure Outcome where
  result : Except EvalError Evaluation
  vars : Variables
  trace : Trace

namespace Run

/-- The right side of a product is not yet known: it is a group, or its base
is followed by a caret. -/
def mustWait : List Token → Bool
  | .leftParen :: _ => true
  | _ :: .operator .pow :: _ => true
  | _ => false

/-- What is left of some tokens after those at their start have been read. -/
abbrev Rest (tokens : List Token) := { rest : List Token // rest <:+ tokens }

/-- Takes a product at once: its right operand is the next token. -/
def takeProduct (policy : NamePolicy) (position : Nat) (op : Operator) :
    (tokens : List Token) → Run (Rest tokens)
  | [] => throw (.operandExpected (position + 1))
  | operand :: rest =>
      if operand.isOperand then do
        applyTop op (← readOperand policy operand)
        return ⟨rest, List.suffix_cons operand rest⟩
      else throw (.operandExpected (position + 1))

/-- Reads a token and those after it that belong to it. `position` is that of
the token. -/
def step (policy : NamePolicy) (position : Nat) (token : Token) (tokens : List Token) :
    Run (Rest tokens) :=
  match token with
  | .number value => do
      pushValue value
      return ⟨tokens, List.suffix_refl tokens⟩
  | .identifier name => do
      pushValue (← readName policy name)
      return ⟨tokens, List.suffix_refl tokens⟩
  | .leftParen => do
      pushWaiting .group
      return ⟨tokens, List.suffix_refl tokens⟩
  | .rightParen => do
      pushValue (← takeSum .parenthesis)
      settleProduct
      return ⟨tokens, List.suffix_refl tokens⟩
  | .assign => throw (.misplacedAssign position)
  | .operator .pow => do
      pushWaiting (.operator .pow)
      takeChain policy position (.ofTokens tokens)
      settleProduct
      return ⟨_, PowerChain.rest_suffix tokens⟩
  | .operator op => do
      let top := (← get).waiting.peek?.getD (.operator .add)
      if top.allows op && (op.precedence == .product) && !mustWait tokens then
        takeProduct policy position op tokens
      else
        pushWaiting (.operator op)
        return ⟨tokens, List.suffix_refl tokens⟩

/-- Reads tokens to the end of the line. `position` is that of the first one. -/
def readTokens (policy : NamePolicy) (position : Nat) : List Token → Run Unit
  | [] => return ()
  | token :: tokens => do
      let ⟨rest, _⟩ ← step policy position token tokens
      readTokens policy (position + 1 + (tokens.length - rest.length)) rest
termination_by tokens => tokens.length
decreasing_by
  rename_i suffix
  have := suffix.length_le
  simp only [List.length_cons]; omega

/-- The value of the tokens of an expression. The first one is at `position`. -/
def expression (policy : NamePolicy) (position : Nat) (tokens : List Token) : Run Float := do
  readTokens policy position tokens
  let total ← takeSum .line
  if (← get).values.isEmpty then return total else throw .adjacentOperands

/-- The value of the tokens of a line. A line of at least three tokens with an
assignment sign second gives its value to the name in front of the sign. -/
def line (policy : NamePolicy) : List Token → Run Evaluation
  | [] => throw .empty
  | first :: .assign :: next :: rest =>
      match first with
      | .identifier name => do
          let value ← expression policy 2 (next :: rest)
          modify fun machine => { machine with vars := machine.vars.assign name value }
          record (name ++ " = " ++ Binary64.text value) value
          return ⟨value, some name⟩
      | _ => throw .badTarget
  | tokens => do
      let value ← expression policy 0 tokens
      return ⟨value, none⟩

end Run

/-- Evaluates a line of tokens. -/
def evaluate (policy : NamePolicy) (tokens : List Token) (vars : Variables)
    (trace : Trace) : Outcome :=
  match (Run.line policy tokens).run ⟨.empty, .empty, vars, trace⟩ with
  | .ok evaluation machine => ⟨.ok evaluation, machine.vars, machine.trace⟩
  | .error fault machine => ⟨.error fault, machine.vars, machine.trace⟩

end Reckoner
