import Reckoner.Proofs.Evaluation.Shape
import Reckoner.Proofs.Token.Printing

/-! # What lies below a sum or a chain of powers

A sum takes its terms and what ends it off the two stacks, a chain of powers takes its base and
the tokens up to its last exponent. Both leave one value behind, and what lies deeper on the
stacks stays as it is. -/

namespace Reckoner

/-! ## Sums -/

namespace SumOperator

theorem symbol_sign (op : SumOperator) : op.sign.symbol = op.1.symbol.toString := by
  obtain ⟨op, hop⟩ := op
  cases op <;> first | rfl | cases hop

end SumOperator

namespace Terms

/-- The tokens of a sum in the order of the line, with its first value in front. -/
def tokens (terms : Terms) (first : Float) : List Token :=
  .number first :: terms.reverse.flatMap fun term => [.operator term.1.1, .number term.2]

theorem tokens_cons (term : SumOperator × Float) (terms : Terms) (first : Float) :
    tokens (term :: terms) first = terms.tokens first ++ [.operator term.1.1, .number term.2] := by
  simp [tokens]

/-- A sum is recorded as it would be written. -/
theorem text_signed (terms : Terms) (first : Float) :
    (Sum.mk first terms.signed).text = written (terms.tokens first) := by
  induction terms with
  | nil => simp [Sum.text, tokens, written, Token.text]
  | cons term terms ih =>
      have hpair : written [.operator term.1.1, .number term.2] =
          term.1.sign.symbol ++ " " ++ Binary64.text term.2 := by
        simp [written, Token.text, SumOperator.symbol_sign]
      calc
        (Sum.mk first (signed (term :: terms))).text =
            (Sum.mk first (signed terms)).text ++ " " ++ term.1.sign.symbol ++ " " ++
              Binary64.text term.2 := by
          simp only [Sum.text, signed_cons, List.foldl_append, List.foldl_cons, List.foldl_nil]
        _ = written (tokens terms first) ++ " " ++
            written [.operator term.1.1, .number term.2] := by
          rw [ih, hpair]
          simp only [String.append_assoc]
        _ = written (tokens (term :: terms) first) := by
          rw [tokens_cons]
          exact (written_append (List.cons_ne_nil _ _) (List.cons_ne_nil _ _)).symm

theorem stepsIn_parenthesis (terms : Terms) (first : Float) :
    (Sum.mk first terms.signed).stepsIn .parenthesis =
      [⟨"(" ++ written (terms.tokens first) ++ ")", terms.total first⟩] := by
  rw [← text_signed, ← total_signed]
  rfl

theorem stepsIn_line (terms : Terms) (first : Float) :
    (Sum.mk first terms.signed).stepsIn .line =
      if 1 ≤ terms.length then [⟨written (terms.tokens first), terms.total first⟩] else [] := by
  cases terms with
  | nil => exact stepsIn_line_of_nil rfl
  | cons term terms =>
      have hone : 1 ≤ (term :: terms).length := Nat.le_add_left 1 _
      rw [if_pos hone, ← text_signed, ← total_signed]
      exact stepsIn_line_of_ne_nil (by simp)

variable {signs : List SumOperator} {values : List Float}

theorem waiting_zip (hl : signs.length ≤ values.length) :
    waiting (signs.zip values) = waitingSums signs := by
  rw [waiting_eq_waitingSums]
  exact congrArg waitingSums (List.map_fst_zip hl)

/-- The values above the first one of a sum are those of its terms. -/
theorem values_zip_append (hl : signs.length < values.length) :
    Terms.values (signs.zip values) ++ values[signs.length] :: values.drop (signs.length + 1) =
      values := by
  induction signs generalizing values with
  | nil => exact List.getElem_cons_drop hl
  | cons op signs ih =>
      obtain ⟨value, values, rfl⟩ := List.exists_cons_of_length_pos (Nat.zero_lt_of_lt hl)
      exact congrArg (value :: ·) (ih (Nat.lt_of_succ_lt_succ hl))

end Terms

/-- With one value more than there are operators above its end, a sum can be gathered. -/
theorem gather_of_lt {signs : List SumOperator} {values : List Float} {stop : SumEnd}
    {below left : List Waiting} (hl : signs.length < values.length) (hb : stop.Bounds below left) :
    gather stop [] values (waitingSums signs ++ below) =
      .ok ⟨⟨values[signs.length], Terms.signed (signs.zip values)⟩,
        values.drop (signs.length + 1), left⟩ := by
  apply gather_eq_ok_iff.mpr
  refine ⟨signs.zip values, values[signs.length], below, ?_, ?_, hb, ?_⟩
  · exact (Terms.values_zip_append hl).symm
  · rw [Terms.waiting_zip (Nat.le_of_lt hl)]
  · rw [List.append_nil]

namespace Run

/-- A sum takes its operators, what ends it and one value more than there are operators. The
values are added from the last to the first, and all that lies deeper stays. A group is recorded
in parentheses, a line only when it has an addition or a subtraction. -/
theorem takeSum_leaves_below (signs : List SumOperator) (values : List Float) (vars : Variables)
    (trace : Trace) (hl : signs.length < values.length) :
    let terms : Terms := signs.zip values
    let first := values[signs.length]
    let below := values.drop (signs.length + 1)
    let total := terms.total first
    let text := written (terms.tokens first)
    (∀ waiting, (takeSum .parenthesis).run
        ⟨⟨values⟩, ⟨waitingSums signs ++ .group :: waiting⟩, vars, trace⟩ =
      .ok total ⟨⟨below⟩, ⟨waiting⟩, vars, trace.extend [⟨"(" ++ text ++ ")", total⟩]⟩) ∧
    (takeSum .line).run ⟨⟨values⟩, ⟨waitingSums signs⟩, vars, trace⟩ =
      .ok total ⟨⟨below⟩, ⟨[]⟩, vars,
        trace.extend (if 1 ≤ signs.length then [⟨text, total⟩] else [])⟩ := by
  intro terms first below total text
  constructor
  · intro waiting
    have hg := gather_of_lt hl (SumEnd.bounds_parenthesis waiting)
    rw [takeSum_apply hg, Terms.total_signed, Terms.stepsIn_parenthesis]
  · have hg := gather_of_lt hl SumEnd.bounds_line
    have hlength : terms.length = signs.length :=
      List.length_zip.trans (Nat.min_eq_left (Nat.le_of_lt hl))
    rw [List.append_nil] at hg
    rw [takeSum_apply hg, Terms.total_signed, Terms.stepsIn_line, hlength]

/-- The large values are gone before the first one is added. From the front it would be lost. -/
theorem takeSum_leaves_below_large_terms :
    let values : List Float := [10000000000000000, 10000000000000000, 1, 7]
    let signs : List SumOperator := [⟨.add, rfl⟩, ⟨.sub, rfl⟩]
    signs.length < values.length ∧
      (takeSum .parenthesis).run ⟨⟨values⟩,
          ⟨waitingSums signs ++ [.group, .operator .mul]⟩, .initial, .start true⟩ =
        .ok 1 ⟨⟨[7]⟩, ⟨[.operator .mul]⟩, .initial,
          ⟨true, [⟨"(1 - 10000000000000000 + 10000000000000000)", 1⟩]⟩⟩ := by
  intro values signs
  have hl : signs.length < values.length := by decide
  have htotal : Terms.total (signs.zip values) 1 = 1 := by decide +kernel
  have htext : written (Terms.tokens (signs.zip values) 1) =
      "1 - 10000000000000000 + 10000000000000000" := by decide +kernel
  have hsum := (takeSum_leaves_below signs values .initial (.start true) hl).1 [.operator .mul]
  simp only [show values[signs.length] = 1 from rfl, htotal, htext] at hsum
  exact ⟨hl, hsum⟩

end Run

/-! ## Chains of powers -/

theorem length_powerTokens (exponents : List Operand) :
    (powerTokens exponents).length = 2 * exponents.length := by
  induction exponents with
  | nil => rfl
  | cons exponent exponents ih =>
      rw [powerTokens_cons, List.length_cons, List.length_cons, ih, List.length_cons]
      omega

namespace PowerChain

/-- At this index of a line a caret opens a chain of these exponents, which goes no further. -/
structure At (line : List Token) (index : Nat) (exponents : List Operand) : Prop where
  ne_nil : exponents ≠ []
  starts : powerTokens exponents <+: line.drop index
  ends : NoPower (line.drop (index + 2 * exponents.length))

theorem size_complete {exponents : List Operand} (hne : exponents ≠ []) (rest : List Token) :
    (complete exponents rest).size + 1 = 2 * exponents.length := by
  have hl := List.length_pos_of_ne_nil hne
  simp only [size, complete, List.length_map]
  omega

variable {line : List Token} {index : Nat} {exponents : List Operand}

/-- What a chain takes off the line are its own tokens. -/
theorem At.ofTokens_eq (h : At line index exponents) :
    ofTokens (line.drop (index + 1)) =
      complete exponents (line.drop (index + 2 * exponents.length)) := by
  obtain ⟨hne, hs, hend⟩ := h
  obtain ⟨exponent, others, rfl⟩ := List.exists_cons_of_ne_nil hne
  have hline : line.drop index = powerTokens (exponent :: others) ++
      line.drop (index + 2 * (exponent :: others).length) := by
    calc
      line.drop index = powerTokens (exponent :: others) ++
          (line.drop index).drop (powerTokens (exponent :: others)).length :=
        List.prefix_append_drop hs
      _ = _ := by rw [length_powerTokens, List.drop_drop]
  have hbehind : line.drop (index + 1) = exponent.token :: powerTokens others ++
      line.drop (index + 2 * (exponent :: others).length) := by
    rw [← List.drop_drop, hline]
    rfl
  rw [hbehind, ofTokens_complete _ _ hend]

end PowerChain

namespace Run

/-- Folds powers as long as one waits on top of these entries. -/
def raiseAll : List Waiting → Run Unit
  | .operator .pow :: waiting => do
      raise 1
      raiseAll waiting
  | _ => return ()

theorem raise_succ (count : Nat) : raise (count + 1) = (do raise 1; raise count) := by
  simp only [raise, bind_assoc, pure_bind]

/-- The powers of a chain are all that wait on top, if none waits below them. -/
theorem raise_eq_raiseAll (count : Nat) {waiting : List Waiting}
    (hw : waiting.head? ≠ some (.operator .pow)) :
    raise count = raiseAll (List.replicate count (.operator .pow) ++ waiting) := by
  induction count with
  | zero =>
      rw [List.replicate_zero, List.nil_append, raiseAll.eq_def]
      split
      · exact absurd rfl hw
      · rfl
  | succ count ih =>
      rw [raise_succ, ih, List.replicate_succ, List.cons_append, raiseAll]

variable {policy : NamePolicy} {line : List Token} {index : Nat} {exponents : List Operand}
variable {waiting : List Waiting} {vars : Variables}

variable (base : Float) (values : List Float) (trace : Trace) in
/-- A chain takes its own tokens off the line, so that reading goes on behind its last exponent,
and reads its exponents in order. The base gives way to the base raised to them from the right,
each power is recorded, the innermost first, and all that lies deeper stays. As no power waits
below, those that are folded are all that wait on top. -/
theorem takeChain_folds_whole (hc : PowerChain.At line index exponents) (hw : Powerless waiting)
    (hr : AllReadable policy vars (exponents.map Operand.token)) :
    let tokens := line.drop (index + 1)
    let chain := PowerChain.ofTokens tokens
    let read := exponents.map (Operand.value vars.read)
    index + 1 + (tokens.length - chain.rest.length) = index + 2 * exponents.length ∧
    chain.rest = line.drop (index + 2 * exponents.length) ∧
    chain.operands = exponents.map Operand.token ∧
    raise (chain.carets + 1) =
      raiseAll (List.replicate exponents.length (.operator .pow) ++ waiting) ∧
    (takeChain policy index chain).run
        ⟨⟨base :: values⟩, ⟨.operator .pow :: waiting⟩, vars, trace⟩ =
      .ok () ⟨⟨power base read :: values⟩, ⟨waiting⟩,
        vars.declareAll (names (exponents.map Operand.token)),
        trace.extend (powerSteps base read)⟩ ∧
    (powerSteps base read).length = exponents.length := by
  intro tokens chain read
  have hchain : chain = .complete exponents (line.drop (index + 2 * exponents.length)) :=
    hc.ofTokens_eq
  have hoperands : chain.operands = exponents.map Operand.token := by rw [hchain]; rfl
  have hcarets : exponents.length = chain.carets + 1 := by
    rw [hchain]
    exact (Nat.sub_add_cancel (List.length_pos_of_ne_nil hc.ne_nil)).symm
  refine ⟨?_, ?_, hoperands, ?_, ?_, ?_⟩
  · have hsize : chain.size + 1 = 2 * exponents.length := by
      rw [hchain]
      exact PowerChain.size_complete hc.ne_nil _
    have hlength : chain.size + chain.rest.length = tokens.length := PowerChain.length_rest tokens
    omega
  · rw [hchain]
    rfl
  · rw [hcarets]
    exact raise_eq_raiseAll _ hw.head?_ne_pow
  · rw [← hoperands] at hr ⊢
    apply takeChain_apply waiting trace index hoperands (by rw [hchain]; rfl) hr rfl
    rw [List.length_map, hcarets]
  · rw [length_powerSteps, List.length_map]

/-- The name in the middle of the chain is not bound. It reads as zero and is declared. -/
theorem takeChain_folds_whole_unbound_exponent :
    let line : List Token := [.number 5, .operator .mul, .number 2, .operator .pow,
      .identifier "y", .operator .pow, .identifier "x", .operator .add, .number 1]
    let exponents : List Operand := [.named "y", .named "x"]
    let vars := Variables.initial.append "x" 3
    let tokens := line.drop 4
    let chain := PowerChain.ofTokens tokens
    PowerChain.At line 3 exponents ∧ Powerless [.operator .mul] ∧
      AllReadable .declare vars (exponents.map Operand.token) ∧
      3 + 1 + (tokens.length - chain.rest.length) = 7 ∧ chain.rest = [.operator .add, .number 1] ∧
      (takeChain .declare 3 chain).run
          ⟨⟨[2, 5]⟩, ⟨[.operator .pow, .operator .mul]⟩, vars, .start true⟩ =
        .ok () ⟨⟨[Operator.pow.apply 2 (Operator.pow.apply 0 3), 5]⟩, ⟨[.operator .mul]⟩,
          vars.append "y" 0,
          ⟨true, [Operator.pow.step 0 3, Operator.pow.step 2 (Operator.pow.apply 0 3)]⟩⟩ := by
  intro line exponents vars tokens chain
  have hc : PowerChain.At line 3 exponents :=
    ⟨List.cons_ne_nil _ _, ⟨[.operator .add, .number 1], rfl⟩, by decide⟩
  have hw : Powerless [.operator .mul] := by simp [Powerless]
  have hr : AllReadable .declare vars (exponents.map Operand.token) := by
    intro name _ hp
    cases hp
  obtain ⟨hnext, hrest, -, -, hrun, -⟩ := takeChain_folds_whole 2 [5] (.start true) hc hw hr
  exact ⟨hc, hw, hr, hnext, hrest, hrun⟩

end Run
end Reckoner
