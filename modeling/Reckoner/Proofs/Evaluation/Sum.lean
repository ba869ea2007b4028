import Reckoner.Proofs.Evaluation.Machine

/-! # Sums on the stacks

Terms that wait for their sum lie on both stacks, the last one on top. Taking a
sum removes exactly these terms, and its total adds them from the top down. -/

namespace Reckoner

namespace SumOperator

/-- The sign that an addition or a subtraction gives to the term behind it. -/
def sign (op : SumOperator) : Sign :=
  match op.1 with
  | .sub => .minus
  | _ => .plus

theorem ofOperator?_eq (op : SumOperator) : Sign.ofOperator? op.1 = some op.sign := by
  obtain ⟨op, hop⟩ := op
  cases op <;> first | rfl | cases hop

theorem accumulate_sign (op : SumOperator) (total term : Float) :
    op.sign.accumulate total term = op.1.apply total term := by
  obtain ⟨op, hop⟩ := op
  cases op <;> first | rfl | cases hop

end SumOperator

/-- The terms of an unfinished sum behind its first one, the last on top. -/
abbrev Terms := List (SumOperator × Float)

namespace Terms

def values (terms : Terms) : List Float := terms.map (·.2)

def waiting (terms : Terms) : List Waiting := terms.map fun term => .operator term.1

/-- The terms with their signs, in the order of the line. -/
def signed (terms : Terms) : List (Sign × Float) :=
  (terms.map fun term => (term.1.sign, term.2)).reverse

@[simp] theorem values_nil : values [] = [] := rfl

@[simp] theorem waiting_nil : waiting [] = [] := rfl

@[simp] theorem values_cons (term : SumOperator × Float) (terms : Terms) :
    values (term :: terms) = term.2 :: terms.values := rfl

@[simp] theorem waiting_cons (term : SumOperator × Float) (terms : Terms) :
    waiting (term :: terms) = .operator term.1 :: terms.waiting := rfl

@[simp] theorem signed_nil : signed [] = [] := rfl

@[simp] theorem signed_cons (term : SumOperator × Float) (terms : Terms) :
    signed (term :: terms) = terms.signed ++ [(term.1.sign, term.2)] := by
  simp [signed]

@[simp] theorem length_values (terms : Terms) : terms.values.length = terms.length :=
  List.length_map _

@[simp] theorem length_waiting (terms : Terms) : terms.waiting.length = terms.length :=
  List.length_map _

/-- The terms added to zero from the top of the stacks down, the first one at the end. -/
def total (terms : Terms) (first : Float) : Float :=
  terms.foldl (fun total term => term.1.1.apply total term.2) 0 + first

theorem total_signed (terms : Terms) (first : Float) :
    (Sum.mk first terms.signed).total = terms.total first := by
  simp [Sum.total, total, signed, List.foldr_reverse, List.foldl_map,
    SumOperator.accumulate_sign]

end Terms

/-- Where a sum ends: `below` is what lies under its terms, `rest` what is left of that. -/
def SumEnd.Bounds : SumEnd → (below rest : List Waiting) → Prop
  | .parenthesis, below, rest => below = .group :: rest
  | .line, below, rest => below = [] ∧ rest = []

theorem SumEnd.bounds_parenthesis (waiting : List Waiting) :
    SumEnd.parenthesis.Bounds (.group :: waiting) waiting := rfl

theorem SumEnd.bounds_line : SumEnd.line.Bounds [] [] := ⟨rfl, rfl⟩

variable {stop : SumEnd} {rest : List (Sign × Float)} {values : List Float}
variable {waiting : List Waiting} {gathered : Gathered}

theorem gather_operator_of_sum (op : SumOperator) (value : Float) :
    gather stop rest (value :: values) (.operator op :: waiting) =
      gather stop ((op.sign, value) :: rest) values waiting := by
  simp only [gather, SumOperator.ofOperator?_eq]

/-- The terms on top of the stacks are gathered first. -/
theorem gather_terms (terms : Terms) :
    gather stop rest (terms.values ++ values) (terms.waiting ++ waiting) =
      gather stop (terms.signed ++ rest) values waiting := by
  induction terms generalizing rest with
  | nil => rfl
  | cons term terms ih =>
      simp only [Terms.values_cons, Terms.waiting_cons, List.cons_append]
      rw [gather_operator_of_sum, ih, Terms.signed_cons, List.append_assoc, List.singleton_append]

theorem gather_of_bounds {first : Float} {below left : List Waiting}
    (hb : stop.Bounds below left) :
    gather stop rest (first :: values) below = .ok ⟨⟨first, rest⟩, values, left⟩ := by
  cases stop with
  | parenthesis =>
      obtain rfl : below = .group :: left := hb
      rfl
  | line =>
      obtain ⟨rfl, rfl⟩ : below = [] ∧ left = [] := hb
      rfl

/-- A sum can be taken exactly when terms and a first value lie above its end. -/
theorem gather_eq_ok_iff :
    gather stop rest values waiting = .ok gathered ↔
      ∃ (terms : Terms) (first : Float) (below : List Waiting),
        values = terms.values ++ first :: gathered.values ∧
        waiting = terms.waiting ++ below ∧ stop.Bounds below gathered.waiting ∧
        gathered.sum = ⟨first, terms.signed ++ rest⟩ := by
  constructor
  · intro hg
    fun_induction gather stop rest values waiting with
    | case1 => cases hg
    | case2 => cases hg
    | case3 rest value values hs =>
        subst hs
        cases hg
        exact ⟨[], value, [], rfl, rfl, ⟨rfl, rfl⟩, rfl⟩
    | case4 rest value values waiting hs =>
        subst hs
        cases hg
        exact ⟨[], value, _, rfl, rfl, rfl, rfl⟩
    | case5 => cases hg
    | case6 rest value values op waiting sign hs ih =>
        obtain ⟨terms, first, below, hv, hw, hb, hsum⟩ := ih hg
        have hop : op.precedence = .sum := by cases op <;> first | rfl | cases hs
        have hsign : SumOperator.sign ⟨op, hop⟩ = sign :=
          Option.some.inj ((SumOperator.ofOperator?_eq ⟨op, hop⟩).symm.trans hs)
        refine ⟨(⟨op, hop⟩, value) :: terms, first, below, ?_, ?_, hb, ?_⟩
        · simp [hv]
        · simp [hw]
        · simp [hsum, hsign]
    | case7 => cases hg
  · rintro ⟨terms, first, below, rfl, rfl, hb, hsum⟩
    obtain ⟨sum, values, left⟩ := gathered
    obtain rfl : sum = ⟨first, terms.signed ++ rest⟩ := hsum
    rw [gather_terms, gather_of_bounds hb]

/-- Which errors a sum can raise, for any kind of error that takes them in. Only an operator
that is no addition or subtraction is reported as dangling. -/
theorem kind_of_gather_error (kind : EvalError → Prop) {fault : EvalError} (hv : kind .noValue)
    (ho : kind .unopenedParen) (hc : kind .unclosedParen)
    (hd : ∀ op, .operator op ∈ waiting → op.precedence ≠ .sum → kind (.danglingOperator op))
    (hg : gather stop rest values waiting = .error fault) : kind fault := by
  fun_induction gather stop rest values waiting with
  | case1 =>
      cases hg
      exact hv
  | case2 =>
      cases hg
      exact ho
  | case3 => cases hg
  | case4 => cases hg
  | case5 =>
      cases hg
      exact hc
  | case6 rest value values op' waiting sign hs ih =>
      exact ih (fun op hm => hd op (List.mem_cons_of_mem _ hm)) hg
  | case7 rest value values op' waiting hs =>
      cases hg
      exact hd op' List.mem_cons_self (by cases op' <;> first | decide | cases hs)

/-- The steps that taking a sum records: a group is always one, a line only with two terms. -/
def Sum.stepsIn (sum : Sum) : SumEnd → List Step
  | .parenthesis => [⟨"(" ++ sum.text ++ ")", sum.total⟩]
  | .line => if sum.rest.isEmpty then [] else [⟨sum.text, sum.total⟩]

theorem stepsIn_line_of_nil {sum : Sum} (h : sum.rest = []) : sum.stepsIn .line = [] := by
  rw [Sum.stepsIn, h]
  rfl

theorem stepsIn_line_of_ne_nil {sum : Sum} (h : sum.rest ≠ []) :
    sum.stepsIn .line = [⟨sum.text, sum.total⟩] := by
  rw [Sum.stepsIn, if_neg (by simpa using h)]

namespace Run

variable {vars : Variables} {trace : Trace}

theorem takeSum_apply (hg : gather stop [] values waiting = .ok gathered) :
    (takeSum stop).run ⟨⟨values⟩, ⟨waiting⟩, vars, trace⟩ = .ok gathered.sum.total
      ⟨⟨gathered.values⟩, ⟨gathered.waiting⟩, vars,
        trace.extend (gathered.sum.stepsIn stop)⟩ := by
  simp only [takeSum, bind_of_ok get_apply, hg, bind_of_ok (set_apply _)]
  cases stop with
  | parenthesis => exact bind_of_ok (record_apply _ _)
  | line =>
      cases he : gathered.sum.rest.isEmpty with
      | true =>
          simp only [Sum.stepsIn, he, if_true, Trace.extend_nil]
          rfl
      | false =>
          simp only [Sum.stepsIn, he, Bool.false_eq_true, if_false]
          exact bind_of_ok (record_apply _ _)

variable (vars trace) in
theorem takeSum_of_gather (hg : gather stop [] values waiting = .ok gathered) :
    ∃ trace', (takeSum stop).run ⟨⟨values⟩, ⟨waiting⟩, vars, trace⟩ =
      .ok gathered.sum.total ⟨⟨gathered.values⟩, ⟨gathered.waiting⟩, vars, trace'⟩ :=
  ⟨_, takeSum_apply hg⟩

theorem takeSum_of_error {fault : EvalError} (hg : gather stop [] values waiting = .error fault) :
    (takeSum stop).run ⟨⟨values⟩, ⟨waiting⟩, vars, trace⟩ =
      .error fault ⟨⟨values⟩, ⟨waiting⟩, vars, trace⟩ := by
  simp only [takeSum, bind_of_ok get_apply, hg, throw_apply]

/-- A sum that was taken has been gathered. -/
theorem gather_of_takeSum_ok {machine final : Machine} {total : Float}
    (h : (takeSum stop).run machine = .ok total final) :
    ∃ gathered, gather stop [] machine.values.items machine.waiting.items = .ok gathered ∧
      total = gathered.sum.total ∧
      final = ⟨⟨gathered.values⟩, ⟨gathered.waiting⟩, machine.vars,
        machine.trace.extend (gathered.sum.stepsIn stop)⟩ := by
  cases hg : gather stop [] machine.values.items machine.waiting.items with
  | error fault =>
      rw [takeSum_of_error hg] at h
      cases h
  | ok gathered =>
      rw [takeSum_apply hg] at h
      cases h
      exact ⟨gathered, rfl, rfl, rfl⟩

theorem gather_of_takeSum_error {machine final : Machine} {fault : EvalError}
    (h : (takeSum stop).run machine = .error fault final) :
    gather stop [] machine.values.items machine.waiting.items = .error fault := by
  cases hg : gather stop [] machine.values.items machine.waiting.items with
  | error fault' =>
      rw [takeSum_of_error hg] at h
      cases h
      rfl
  | ok gathered =>
      obtain ⟨trace', ht⟩ := takeSum_of_gather machine.vars machine.trace hg
      rw [ht] at h
      cases h

variable (values vars trace) in
/-- The sum of the terms above its end takes their place. -/
theorem takeSum_terms (terms : Terms) (first : Float) {below left : List Waiting}
    (hb : stop.Bounds below left) :
    ∃ trace', (takeSum stop).run
        ⟨⟨terms.values ++ first :: values⟩, ⟨terms.waiting ++ below⟩, vars, trace⟩ =
      .ok (terms.total first) ⟨⟨values⟩, ⟨left⟩, vars, trace'⟩ := by
  have hg : gather stop [] (terms.values ++ first :: values) (terms.waiting ++ below) =
      .ok ⟨⟨first, terms.signed⟩, values, left⟩ := by
    rw [gather_terms, gather_of_bounds hb, List.append_nil]
  simpa only [Terms.total_signed] using takeSum_of_gather vars trace hg

end Run
end Reckoner
