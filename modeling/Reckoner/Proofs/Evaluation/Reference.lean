import Reckoner.Proofs.Evaluation.Line
import Reckoner.Proofs.Evaluation.Step

/-! # The value of an infix expression

Reading an expression leaves its terms on the stacks, and reading a term leaves
one value, whatever lies below. The waiting of products and powers is what
makes the stacks agree with the tree, so the two kinds of factor are followed
separately behind a product. -/

namespace Reckoner

variable {policy : NamePolicy} {read : String → Float}

/-- The terms of an expression behind its first one, the last on top. -/
def Expr.terms (read : String → Float) : Expr → Terms
  | .term _ => []
  | .sum left op right => (op, right.value read) :: left.terms read

/-- The value of the first term. -/
def Expr.first (read : String → Float) : Expr → Float
  | .term t => t.value read
  | .sum left _ _ => left.first read

theorem Expr.addTo_eq (read : String → Float) (total : Float) (e : Expr) :
    e.addTo read total =
      (e.terms read).foldl (fun total term => term.1.1.apply total term.2) total +
        e.first read := by
  cases e with
  | term t => simp only [addTo, terms, first, List.foldl_nil]
  | sum left op right =>
      simp only [addTo, terms, first, List.foldl_cons]
      exact left.addTo_eq read _

/-- The terms of an expression sum to its value. -/
theorem Expr.total_terms (read : String → Float) (e : Expr) :
    (e.terms read).total (e.first read) = e.value read := by
  calc
    (e.terms read).total (e.first read) =
        (e.terms read).foldl (fun total term => term.1.1.apply total term.2) 0 +
          e.first read := rfl
    _ = e.addTo read 0 := (e.addTo_eq read 0).symm
    _ = e.value read := rfl

/-- A chain that may be empty, behind its base. -/
theorem Turns.powers {rest : List Token} {values : List Float} {waiting : List Waiting}
    (exponents : List Operand) (base : Float) (hn : NoPower rest) (hq : Quiet waiting) :
    Turns policy read (powerTokens exponents) rest ⟨base :: values, waiting⟩
      ⟨Reckoner.power base (exponents.map (Operand.value read)) :: values, waiting⟩ := by
  cases exponents with
  | nil => exact Turns.nil
  | cons exponent exponents => exact Turns.power base (List.cons_ne_nil _ _) hn (.quiet hq)

/-- A closing parenthesis behind an expression leaves its value. -/
theorem Expr.turnsClosed {rest : List Token} {values : List Float} {waiting : List Waiting}
    {after : Stacks} (e : Expr) (hs : Settles ⟨e.value read :: values, waiting⟩ after) :
    Turns policy read [.rightParen] rest
      ⟨(e.terms read).values ++ e.first read :: values,
        (e.terms read).waiting ++ .group :: waiting⟩ after := by
  rw [← e.total_terms] at hs
  exact Turns.rightParen _ _ hs

mutual

theorem Expr.turns (e : Expr) (rest : List Token) (values : List Float) {waiting : List Waiting}
    (hn : NoPower rest) (hq : Quiet waiting) :
    Turns policy read e.tokens rest ⟨values, waiting⟩
      ⟨(e.terms read).values ++ e.first read :: values, (e.terms read).waiting ++ waiting⟩ := by
  match e with
  | .term t => exact t.turns rest values hn hq
  | .sum left op right =>
      have hop : NoPower (.operator op.1 :: right.tokens ++ rest) :=
        noPower_operator op.ne_pow _
      have hl := left.turns _ values hop hq
      have hr := right.turns rest ((left.terms read).values ++ left.first read :: values) hn
        (quiet_sum op ((left.terms read).waiting ++ waiting))
      exact hl.append ((Turns.sum op).append hr)

theorem Term.turns (t : Term) (rest : List Token) (values : List Float) {waiting : List Waiting}
    (hn : NoPower rest) (hq : Quiet waiting) :
    Turns policy read t.tokens rest ⟨values, waiting⟩ ⟨t.value read :: values, waiting⟩ := by
  match t with
  | .factor f => exact f.turns rest values hn hq
  | .product left op right =>
      have hop : NoPower (.operator op.1 :: right.tokens ++ rest) :=
        noPower_operator op.ne_pow _
      have hl := left.turns _ values hop hq
      exact hl.append (right.turnsBehind rest values op (left.value read) hn hq)

theorem Factor.turns (f : Factor) (rest : List Token) (values : List Float) {waiting : List Waiting}
    (hn : NoPower rest) (hq : Quiet waiting) :
    Turns policy read f.tokens rest ⟨values, waiting⟩ ⟨f.value read :: values, waiting⟩ := by
  match f with
  | .operand base exponents =>
      exact (Turns.operand base).append (Turns.powers exponents _ hn hq)
  | .group inner exponents =>
      have hi := inner.turns (.rightParen :: powerTokens exponents ++ rest) values (by nofun)
        (quiet_group waiting)
      exact Turns.leftParen.append (hi.append
        ((inner.turnsClosed (.quiet hq)).append (Turns.powers exponents _ hn hq)))

/-- A factor behind a product, with the value on its left on top of the stack. -/
theorem Factor.turnsBehind (f : Factor) (rest : List Token) (values : List Float)
    {waiting : List Waiting} (op : ProductOperator) (left : Float) (hn : NoPower rest)
    (hq : Quiet waiting) :
    Turns policy read (.operator op :: f.tokens) rest ⟨left :: values, waiting⟩
      ⟨f.valueBehind read (op.1.apply left) :: values, waiting⟩ := by
  have hw := hq.head?_ne_pow
  match f with
  | .operand base [] => exact Turns.product op base left hw hn
  | .operand base (exponent :: exponents) =>
      have hm : Run.mustWait
          (([base.token] ++ powerTokens (exponent :: exponents)) ++ rest) = true := by
        cases base <;> rfl
      exact (Turns.productWaits op hw hm).append ((Turns.operand base).append
        (Turns.power _ (List.cons_ne_nil exponent exponents) hn (.product op left _)))
  | .group inner exponents =>
      have hi := inner.turns (.rightParen :: powerTokens exponents ++ rest) (left :: values)
        (by nofun) (quiet_group (.operator op.1 :: waiting))
      exact (Turns.productWaits op hw rfl).append (Turns.leftParen.append (hi.append
        ((inner.turnsClosed (.product op left _)).append (Turns.powers exponents _ hn hq))))

end

theorem Expr.scanned_lineTokens (target : Option String) (e : Expr) :
    scanned (lineTokens target e.tokens) = e.tokens :=
  Reckoner.scanned_lineTokens e.tokens_ne_nil e.assign_not_mem_tokens

/-- The scan of an infix expression ends with its value and empty stacks. -/
theorem Expr.expression_apply (e : Expr) (start : Nat) {vars : Variables} (trace : Trace)
    (hr : Run.AllReadable policy vars e.tokens) :
    ∃ trace', (Run.expression policy start e.tokens).run ⟨.empty, .empty, vars, trace⟩ =
      .ok (e.value vars.read) ⟨.empty, .empty, vars.declareAll (names e.tokens), trace'⟩ := by
  obtain ⟨trace₁, hl⟩ := e.turns [] [] (by nofun) quiet_nil start [] vars trace rfl hr
  obtain ⟨trace₂, ht⟩ := Run.takeSum_terms [] (vars.declareAll (names e.tokens)) trace₁
    (e.terms vars.read) (e.first vars.read) SumEnd.bounds_line
  rw [e.total_terms] at ht
  rw [List.append_nil] at hl
  exact ⟨trace₂, Run.expression_eq_ok_iff.mpr ⟨_, hl, ht, rfl⟩⟩

/-- An infix expression whose names may be read has the value of its tree. The
line declares the names of the expression in order, then assigns. -/
theorem evaluate_expr (policy : NamePolicy) (target : Option String) (e : Expr)
    (vars : Variables) (trace : Trace)
    (hr : policy = .refuse → ∀ name ∈ names e.tokens, (vars.value? name).isSome) :
    (evaluate policy (lineTokens target e.tokens) vars trace).result =
        .ok ⟨e.value vars.read, target⟩ ∧
      (evaluate policy (lineTokens target e.tokens) vars trace).vars =
        match target with
        | none => vars.declareAll (names e.tokens)
        | some name => (vars.declareAll (names e.tokens)).assign name (e.value vars.read) := by
  obtain ⟨trace', he⟩ := e.expression_apply (offset target) trace
    (fun name hm hp => hr hp name hm)
  rw [evaluate_lineTokens policy vars trace e.tokens_ne_nil (e.scanned_lineTokens target), he]
  cases target with
  | none => exact ⟨rfl, rfl⟩
  | some name => exact ⟨rfl, rfl⟩

/-- The square behind the group covers the product in front of it. -/
theorem evaluate_expr_product_group_squared :
    (evaluate .refuse
      [.identifier "y", .assign, .number 2, .operator .mul, .leftParen, .identifier "x",
        .operator .sub, .number 1, .rightParen, .operator .pow, .number 2]
      ⟨[⟨"x", 5, false⟩]⟩ (.start false)).result =
        .ok ⟨0 + Operator.pow.apply 8 2, some "y"⟩ := by
  let inner : Expr := .sum (.term (.factor (.operand (.named "x") []))) ⟨.sub, rfl⟩
    (.factor (.operand (.number 1) []))
  let e : Expr := .term (.product (.factor (.operand (.number 2) [])) ⟨.mul, rfl⟩
    (.group inner [.number 2]))
  have hn : names e.tokens = ["x"] := rfl
  have hr : ∀ name ∈ names e.tokens,
      ((⟨[⟨"x", 5, false⟩]⟩ : Variables).value? name).isSome := by
    rw [hn]
    decide
  have h := (evaluate_expr .refuse (some "y") e ⟨[⟨"x", 5, false⟩]⟩ (.start false)
    (fun _ => hr)).1
  have hx : (2 * (0 - 1 + 5) : Float) = 8 := by decide +kernel
  rw [← hx]
  exact h

end Reckoner
