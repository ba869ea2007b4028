import Reckoner.Proofs.Evaluation.Accounting
import Reckoner.Proofs.Evaluation.NameOrder

/-! # Where errors point

The position in an error is counted while the tokens are read, from the first one that is
scanned. It is the place in the whole line at which the error lies, and the names and
operators in errors are tokens of the line. -/

namespace Reckoner

namespace Shape

variable {piece rest : List Token} {before after : Shape} {op : Operator}

theorem Settles.waiting_suffix (h : Settles before after) : after.waiting <:+ before.waiting := by
  cases h with
  | quiet => exact List.suffix_refl _
  | product op => exact List.suffix_cons _ _

/-- An operator waits because a step has read it. -/
theorem Step.mem_of_waits (h : Step piece rest before after)
    (hm : .operator op ∈ after.waiting) : .operator op ∈ before.waiting ∨ .operator op ∈ piece := by
  cases h with
  | operand => exact .inl hm
  | leftParen => exact .inl ((List.mem_cons.mp hm).resolve_left nofun)
  | rightParen signs hb hs =>
      subst hb
      exact .inl (List.mem_append_right _ (List.mem_cons_of_mem _ (hs.waiting_suffix.subset hm)))
  | power _ _ _ hs => exact .inl (hs.waiting_suffix.subset hm)
  | hanging _ hs => exact .inl (hs.waiting_suffix.subset hm)
  | product => exact .inl hm
  | productWaits op' =>
      rcases List.mem_cons.mp hm with he | hm
      · cases he
        exact .inr List.mem_cons_self
      · exact .inl hm
  | sum op' =>
      rcases List.mem_cons.mp hm with he | hm
      · cases he
        exact .inr List.mem_cons_self
      · exact .inl hm

theorem Steps.mem_of_waits (h : Steps piece rest before after)
    (hm : .operator op ∈ after.waiting) : .operator op ∈ before.waiting ∨ .operator op ∈ piece := by
  induction h with
  | nil => exact .inl hm
  | cons hf _ ih =>
      rcases ih hm with hm | hm
      · exact (hf.mem_of_waits hm).imp_right (List.mem_append_left _)
      · exact .inr (List.mem_append_right _ hm)

end Shape

variable {policy : NamePolicy} {start : Nat} {tokens : List Token} {vars : Variables}
variable {trace : Trace} {fault : EvalError}

/-- The operators that wait at a point of an evaluation have been read. -/
theorem Reading.Leads.mem_of_waits {reading : Reading} {op : Operator}
    (hl : Leads policy start ⟨[], tokens, ⟨.empty, .empty, vars, trace⟩⟩ reading)
    (hm : .operator op ∈ reading.machine.waiting.items) : .operator op ∈ reading.done := by
  obtain ⟨piece, hd, hs, _⟩ := hl.exists_steps nofun
  obtain rfl : reading.done = piece := hd
  exact (hs.mem_of_waits hm).resolve_left List.not_mem_nil

variable (policy vars start tokens) in
/-- What an error of an expression says of its tokens, the first of which is at `start`. -/
inductive Placed : EvalError → Prop
  | noValue : Placed .noValue
  | unclosedParen : Placed .unclosedParen
  | unopenedParen : Placed .unopenedParen
  | adjacentOperands : Placed .adjacentOperands
  | operandExpected {place : Nat} (h : LacksOperand tokens place) :
      Placed (.operandExpected (start + place))
  | misplacedAssign {front rest : List Token} (ht : tokens = front ++ .assign :: rest)
      (hf : .assign ∉ front) : Placed (.misplacedAssign (start + front.length))
  | danglingOperator {op : Operator} (hm : .operator op ∈ tokens)
      (hp : op.precedence = .product) : Placed (.danglingOperator op)
  | unbound {name : String} (hp : policy = .refuse) (hm : .identifier name ∈ tokens)
      (hv : vars.value? name = none) : Placed (.unbound name)

theorem placed_of_gather_error {stop : SumEnd} {reading : Reading} {values : List Float}
    (hl : Reading.Leads policy start ⟨[], tokens, ⟨.empty, .empty, vars, trace⟩⟩ reading)
    (hg : gather stop [] values reading.machine.waiting.items = .error fault) :
    Placed policy start tokens vars fault := by
  have ht : tokens = reading.done ++ reading.rest := hl.tokens_eq
  refine kind_of_gather_error _ .noValue .unopenedParen .unclosedParen ?_ hg
  intro op hm hs
  refine .danglingOperator ?_ ((accounted_of_leads hl).powerless.precedence_eq hm hs)
  rw [ht]
  exact List.mem_append_left _ (hl.mem_of_waits hm)

/-- A name that is refused is one of those that are read. -/
theorem placed_of_refusal {name : String} {machine final : Machine}
    (h : (Run.expression policy start tokens).run machine = .error (.unbound name) final) :
    Placed policy start tokens machine.vars (.unbound name) := by
  obtain ⟨piece, -, -, hu⟩ := (Run.reads_expression tokens).error h
  obtain ⟨hp, hr⟩ := hu name rfl
  simp only [Run.Readable, Classical.not_imp, Bool.not_eq_true, Option.isSome_eq_false_iff,
    Option.isNone_iff_eq_none] at hr
  exact .unbound hr.1 (hp.subset (List.mem_append_right _ List.mem_cons_self)) hr.2

/-- A step that fails does so at its own place. -/
theorem placed_of_step_error {reading : Reading} {token : Token} {rest : List Token}
    {final : Machine}
    (hl : Reading.Leads policy start ⟨[], tokens, ⟨.empty, .empty, vars, trace⟩⟩ reading)
    (hr : reading.rest = token :: rest)
    (h : (Run.step policy (start + reading.done.length) token rest).run reading.machine =
      .error fault final) (hn : Run.NoRefusal fault) :
    Placed policy start tokens vars fault := by
  have ht : tokens = reading.done ++ token :: rest := hr ▸ hl.tokens_eq
  have hkind := Run.kind_of_step_error
    (fun fault => Run.NoRefusal fault → Placed policy start tokens vars fault)
    (fun _ => .noValue) (fun name hn => absurd rfl (hn name)) ?_ ?_ h
  · rcases hkind with hg | hplaced
    · exact placed_of_gather_error hl hg
    · exact hplaced hn
  · intro place hlacks _
    rw [Nat.add_assoc]
    apply Placed.operandExpected
    rw [ht]
    exact hlacks.append_left reading.done
  · rintro rfl _
    exact .misplacedAssign ht (accounted_of_leads hl).assign_not_mem

/-- An expression that fails says truly where. -/
theorem placed_of_expression_error {final : Machine}
    (h : (Run.expression policy start tokens).run ⟨.empty, .empty, vars, trace⟩ =
      .error fault final) : Placed policy start tokens vars fault := by
  by_cases hn : Run.NoRefusal fault
  · rcases Run.expression_eq_error h with
      ⟨reading, token, rest, hl, hr, hs⟩ | ⟨middle, hl, hs⟩ | rfl
    · exact placed_of_step_error hl hr hs hn
    · exact placed_of_gather_error hl (Run.gather_of_takeSum_error hs)
    · exact .adjacentOperands
  · simp only [Run.NoRefusal, ne_eq, not_forall, not_not] at hn
    obtain ⟨name, rfl⟩ := hn
    exact placed_of_refusal h

/-! ## Positions in the line -/

/-- The position of the first token that is scanned. -/
def scanStart (tokens : List Token) : Nat := tokens.length - (scanned tokens).length

theorem scanStart_eq {target : Option String} (ht : lineTokens target (scanned tokens) = tokens) :
    scanStart tokens = offset target := by
  have hlength := congrArg List.length ht
  cases target with
  | none =>
      rw [lineTokens] at hlength
      rw [scanStart, hlength, Nat.sub_self, offset]
  | some name =>
      rw [lineTokens, List.length_cons, List.length_cons] at hlength
      rw [scanStart, offset]
      omega

/-- The scanned tokens stand behind as many as the start of the scan counts. -/
theorem exists_front {target : Option String} (ht : lineTokens target (scanned tokens) = tokens) :
    ∃ front, tokens = front ++ scanned tokens ∧ front.length = scanStart tokens := by
  rw [scanStart_eq ht]
  cases target with
  | none => exact ⟨[], ht.symm, rfl⟩
  | some name => exact ⟨[.identifier name, .assign], ht.symm, rfl⟩

/-- A line that is scanned fails as its scanned tokens do. -/
theorem placed_of_scanned {target : Option String} (hne : scanned tokens ≠ [])
    (ht : lineTokens target (scanned tokens) = tokens)
    (h : (evaluate policy tokens vars trace).result = .error fault) :
    Placed policy (scanStart tokens) (scanned tokens) vars fault := by
  rw [evaluate_of_scanned policy vars trace hne ht, ← scanStart_eq ht,
    conclude_eq_error_iff] at h
  obtain ⟨final, he⟩ := h
  exact placed_of_expression_error he

theorem placed_of_evaluate_error
    (h : (evaluate policy tokens vars trace).result = .error fault) (hf : fault ≠ .empty)
    (hb : fault ≠ .badTarget) :
    (∃ front, tokens = front ++ scanned tokens ∧ front.length = scanStart tokens) ∧
      Placed policy (scanStart tokens) (scanned tokens) vars fault := by
  rcases line_cases tokens with ⟨fault', hfault, he⟩ | ⟨target, hne, ht⟩
  · rw [he] at h
    cases h
    exact absurd hfault (not_or.mpr ⟨hf, hb⟩)
  · exact ⟨exists_front ht, placed_of_scanned hne ht h⟩

/-! ## The errors of a line -/

theorem evaluate_badTarget_iff :
    (evaluate policy tokens vars trace).result = .error .badTarget ↔
      ∃ first next rest, tokens = first :: .assign :: next :: rest ∧
        ∀ name, first ≠ .identifier name := by
  constructor
  · intro h
    rcases line_forms tokens with rfl | hbad | ⟨target, hne, ht⟩
    · cases h
    · exact hbad
    · exact nomatch placed_of_scanned hne ht h
  · rintro ⟨first, next, rest, rfl, hf⟩
    rw [evaluate_badTarget policy vars trace hf next rest]

theorem evaluate_empty_iff :
    (evaluate policy tokens vars trace).result = .error .empty ↔ tokens = [] := by
  constructor
  · intro h
    rcases line_forms tokens with rfl | ⟨first, next, rest, rfl, hf⟩ | ⟨target, hne, ht⟩
    · rfl
    · rw [evaluate_badTarget policy vars trace hf next rest] at h
      cases h
    · exact nomatch placed_of_scanned hne ht h
  · rintro rfl
    rfl

theorem LacksOperand.getElem? {place : Nat} (h : LacksOperand tokens place) :
    0 < place ∧ place ≤ tokens.length ∧
      (∃ op, tokens[place - 1]? = some (.operator op) ∧ op.precedence ≠ .sum) ∧
      ∀ next ∈ tokens[place]?, next.isOperand = false := by
  obtain ⟨front, hop, hn⟩ := h
  refine ⟨Nat.succ_pos _, by simp, ⟨_, by simp, hop⟩, ?_⟩
  intro next hnext
  apply hn
  simpa [List.head?_eq_getElem?, List.getElem?_append_right] using hnext

/-- An operand is only missed behind a product or a power, where there is none. -/
theorem lacksOperand_of_evaluate {place : Nat}
    (h : (evaluate policy tokens vars trace).result = .error (.operandExpected place)) :
    LacksOperand tokens place := by
  obtain ⟨⟨front, ht, hl⟩, hp⟩ := placed_of_evaluate_error h nofun nofun
  cases hp with
  | operandExpected hlacks =>
      have hwhole := hlacks.append_left front
      rwa [← ht, hl] at hwhole

/-- The sign that is misplaced is the first one that is scanned. -/
theorem misplacedAssign_of_evaluate {place : Nat}
    (h : (evaluate policy tokens vars trace).result = .error (.misplacedAssign place)) :
    scanStart tokens ≤ place ∧ tokens[place]? = some .assign ∧
      ∀ earlier, scanStart tokens ≤ earlier → earlier < place → tokens[earlier]? ≠ some .assign := by
  obtain ⟨⟨front, ht, hl⟩, hp⟩ := placed_of_evaluate_error h nofun nofun
  cases hp with
  | @misplacedAssign before rest hs hb =>
      rw [hs] at ht
      rw [← hl, ht]
      refine ⟨Nat.le_add_right _ _, by simp, ?_⟩
      intro earlier hle hlt hsign
      apply hb
      rw [List.getElem?_append_right hle, List.getElem?_append_left (by omega)] at hsign
      exact List.mem_of_getElem? hsign

/-- The positions, names and operators in errors are those of the line. An operand is missed
only behind a product or a power that none follows, and a sign is misplaced only where the
first one is scanned. A name is unbound only if it is scanned, is not in the table and may not
be declared. -/
theorem evaluate_errors_placed (policy : NamePolicy) (tokens : List Token) (vars : Variables)
    (trace : Trace) :
    let result := (evaluate policy tokens vars trace).result
    (∀ place, result = .error (.operandExpected place) →
      0 < place ∧ place ≤ tokens.length ∧
        (∃ op, tokens[place - 1]? = some (.operator op) ∧ op.precedence ≠ .sum) ∧
        ∀ next ∈ tokens[place]?, next.isOperand = false) ∧
    (∀ place, result = .error (.misplacedAssign place) →
      scanStart tokens ≤ place ∧ tokens[place]? = some .assign ∧
        ∀ earlier, scanStart tokens ≤ earlier → earlier < place →
          tokens[earlier]? ≠ some .assign) ∧
    (∀ name, result = .error (.unbound name) →
      policy = .refuse ∧ .identifier name ∈ scanned tokens ∧ name ∉ vars.names) ∧
    (∀ op, result = .error (.danglingOperator op) →
      .operator op ∈ tokens ∧ op.precedence = .product) ∧
    (result = .error .badTarget ↔
      ∃ first next rest, tokens = first :: .assign :: next :: rest ∧
        ∀ name, first ≠ .identifier name) ∧
    (result = .error .empty ↔ tokens = []) := by
  intro result
  refine ⟨?_, ?_, ?_, ?_, ?_, ?_⟩
  · intro place h
    exact (lacksOperand_of_evaluate h).getElem?
  · intro place h
    exact misplacedAssign_of_evaluate h
  · intro name h
    obtain ⟨-, hp⟩ := placed_of_evaluate_error h nofun nofun
    cases hp with
    | unbound hp hm hv => exact ⟨hp, hm, Variables.value?_eq_none_iff.mp hv⟩
  · intro op h
    obtain ⟨⟨front, ht, -⟩, hp⟩ := placed_of_evaluate_error h nofun nofun
    cases hp with
    | danglingOperator hm hp =>
        rw [ht]
        exact ⟨List.mem_append_right _ hm, hp⟩
  · exact evaluate_badTarget_iff
  · exact evaluate_empty_iff

end Reckoner
