import Reckoner.Proofs.Evaluation.Faults
import Reckoner.Proofs.Table

/-! # The order in which names are read

Every operation reads the tokens that it consumes from left to right. Whether
it succeeds or fails, the names it has read are those of a first part of these
tokens, all of them could be read, and all of them are declared. It fails for a
name only at the first one that is refused. -/

namespace Reckoner

/-- What an evaluation that has read some tokens has done to the machine. -/
structure Effect (policy : NamePolicy) (before : Machine) (piece : List Token) (after : Machine) :
    Prop where
  readable : Run.AllReadable policy before.vars piece
  vars_eq : after.vars = before.vars.declareAll (names piece)
  steps : before.trace.steps <+: after.trace.steps

namespace Effect

variable {policy : NamePolicy} {before middle after : Machine} {first second : List Token}

/-- Tokens without names may be passed over, and steps recorded. -/
theorem of_names_eq_nil (hn : names first = []) (hv : after.vars = before.vars)
    (hs : before.trace.steps <+: after.trace.steps) : Effect policy before first after where
  readable := Run.allReadable_of_names_eq_nil hn
  vars_eq := by rw [hn, hv, Variables.declareAll_nil]
  steps := hs

theorem refl (policy : NamePolicy) (machine : Machine) : Effect policy machine [] machine :=
  of_names_eq_nil rfl rfl (List.prefix_refl _)

theorem trans (hf : Effect policy before first middle) (hs : Effect policy middle second after) :
    Effect policy before (first ++ second) after where
  readable := by
    have hr := hs.readable
    rw [hf.vars_eq] at hr
    exact Run.allReadable_append.mpr ⟨hf.readable, hf.readable.of_declareAll hr⟩
  vars_eq := by rw [hs.vars_eq, hf.vars_eq, names_append, Variables.declareAll_append]
  steps := hf.steps.trans hs.steps

/-- A name that is refused afterwards was refused before. -/
theorem not_readable {name : String} (h : Effect policy before first after)
    (hn : ¬ Run.Readable policy after.vars name) : ¬ Run.Readable policy before.vars name := by
  intro hr
  have ha : Run.AllReadable policy before.vars [.identifier name] := by
    intro other hm
    obtain rfl : other = name := List.mem_singleton.mp hm
    exact hr
  apply hn
  rw [h.vars_eq]
  exact ha.declareAll _ name List.mem_cons_self

theorem vars_eq_extend (h : Effect policy before first after) :
    after.vars = before.vars.extend (before.vars.fresh (names first)) := by
  rw [h.vars_eq, Variables.declareAll_eq_extend]

theorem vars_eq_of_refuse (h : Effect .refuse before first after) : after.vars = before.vars := by
  rw [h.vars_eq, h.readable.declareAll_eq]

end Effect

namespace Run

variable {α β : Type} {policy : NamePolicy} {position : Nat}

/-- The fault is no refusal of a name. -/
def NoRefusal (fault : EvalError) : Prop := ∀ name, fault ≠ .unbound name

/-- The names of `before` are still to be read by a computation. If it succeeds
it leaves those of `after`; if it fails it has read some of the first tokens,
and the next one is the name that was refused, if the fault is a refusal. -/
structure Reads (policy : NamePolicy) (before : List Token) (after : α → List Token)
    (computation : Run α) : Prop where
  ok {machine final : Machine} {a : α} (h : computation.run machine = .ok a final) :
    ∃ piece, before = piece ++ after a ∧ Effect policy machine piece final
  error {machine final : Machine} {fault : EvalError}
    (h : computation.run machine = .error fault final) :
    ∃ piece, piece <+: before ∧ Effect policy machine piece final ∧
      ∀ name, fault = .unbound name →
        piece ++ [.identifier name] <+: before ∧ ¬ Readable policy machine.vars name

namespace Reads

variable {before : List Token} {middle : α → List Token} {after : β → List Token}

theorem pure {a : α} (ha : middle a = before) : Reads policy before middle (pure a : Run α) where
  ok h := by
    cases h
    exact ⟨[], ha.symm, .refl _ _⟩
  error := nofun

theorem throw {fault : EvalError} (ho : NoRefusal fault) :
    Reads policy before middle (throw fault : Run α) where
  ok := nofun
  error h := by
    cases h
    exact ⟨[], List.nil_prefix, .refl _ _, fun name he => absurd he (ho name)⟩

theorem bind {first : Run α} {next : α → Run β} (hf : Reads policy before middle first)
    (hn : ∀ a, Reads policy (middle a) after (next a)) :
    Reads policy before after (first >>= next) where
  ok h := by
    obtain ⟨a, machine', h, h'⟩ := bind_eq_ok_iff.mp h
    obtain ⟨piece, hb, he⟩ := hf.ok h
    obtain ⟨piece', hm, he'⟩ := (hn a).ok h'
    exact ⟨piece ++ piece', by rw [hb, hm, List.append_assoc], he.trans he'⟩
  error h := by
    rcases bind_eq_error_iff.mp h with h | ⟨a, machine', h, h'⟩
    · exact hf.error h
    · obtain ⟨piece, rfl, he⟩ := hf.ok h
      obtain ⟨piece', hp, he', hu⟩ := (hn a).error h'
      refine ⟨piece ++ piece', (List.prefix_append_right_inj piece).mpr hp, he.trans he', ?_⟩
      intro name hname
      obtain ⟨hp', hr⟩ := hu name hname
      rw [List.append_assoc]
      exact ⟨(List.prefix_append_right_inj piece).mpr hp', he.not_readable hr⟩

/-- Tokens without names may be passed over. -/
theorem skip (passed : List Token) {computation : Run α} (hp : names passed = [])
    (h : Reads policy before middle computation) :
    Reads policy (passed ++ before) middle computation where
  ok {machine _ _} hr := by
    have hskip : Effect policy machine passed machine :=
      .of_names_eq_nil hp rfl (List.prefix_refl _)
    obtain ⟨piece, rfl, he⟩ := h.ok hr
    exact ⟨passed ++ piece, (List.append_assoc _ _ _).symm, hskip.trans he⟩
  error {machine _ _} hr := by
    have hskip : Effect policy machine passed machine :=
      .of_names_eq_nil hp rfl (List.prefix_refl _)
    obtain ⟨piece, hb, he, hu⟩ := h.error hr
    refine ⟨passed ++ piece, (List.prefix_append_right_inj passed).mpr hb, hskip.trans he, ?_⟩
    intro name hname
    obtain ⟨hb', hr'⟩ := hu name hname
    rw [List.append_assoc]
    exact ⟨(List.prefix_append_right_inj passed).mpr hb', hr'⟩

/-- What always succeeds and leaves the variables alone reads no name. -/
theorem of_ok {computation : Run α}
    (h : ∀ machine, ∃ a final, computation.run machine = .ok a final ∧
      final.vars = machine.vars ∧ machine.trace.steps <+: final.trace.steps) :
    Reads policy before (fun _ => before) computation where
  ok {machine _ _} hr := by
    obtain ⟨a, final, hc, hv, hs⟩ := h machine
    rw [hc] at hr
    cases hr
    exact ⟨[], rfl, .of_names_eq_nil rfl hv hs⟩
  error {machine _ _} hr := by
    obtain ⟨a, final, hc, _⟩ := h machine
    rw [hc] at hr
    cases hr

end Reads

variable {before : List Token}

theorem reads_get : Reads policy before (fun _ => before) (get : Run Machine) :=
  .of_ok fun machine => ⟨machine, machine, rfl, rfl, List.prefix_refl _⟩

theorem reads_record (operation : String) (result : Float) :
    Reads policy before (fun _ => before) (record operation result) :=
  .of_ok fun machine => ⟨(), _, rfl, rfl, machine.trace.steps_prefix_extend _⟩

theorem reads_pushValue (value : Float) :
    Reads policy before (fun _ => before) (pushValue value) :=
  .of_ok fun _ => ⟨(), _, rfl, rfl, List.prefix_refl _⟩

theorem reads_pushWaiting (entry : Waiting) :
    Reads policy before (fun _ => before) (pushWaiting entry) :=
  .of_ok fun _ => ⟨(), _, rfl, rfl, List.prefix_refl _⟩

theorem reads_dropWaiting : Reads policy before (fun _ => before) dropWaiting :=
  .of_ok fun _ => ⟨(), _, rfl, rfl, List.prefix_refl _⟩

theorem reads_takeValue : Reads policy before (fun _ => before) takeValue where
  ok {machine _ _} h := by
    obtain ⟨⟨values⟩, ⟨waiting⟩, vars, trace⟩ := machine
    cases values with
    | nil => cases h
    | cons value values =>
        cases h
        exact ⟨[], rfl, .of_names_eq_nil rfl rfl (List.prefix_refl _)⟩
  error {machine _ _} h := by
    obtain ⟨⟨values⟩, ⟨waiting⟩, vars, trace⟩ := machine
    cases values with
    | nil =>
        cases h
        exact ⟨[], List.nil_prefix, .refl _ _, nofun⟩
    | cons value values => cases h

theorem reads_applyTop (op : Operator) (right : Float) :
    Reads policy before (fun _ => before) (applyTop op right) := by
  refine reads_takeValue.bind ?_
  intro left
  refine (reads_record _ _).bind ?_
  intro _
  exact reads_pushValue _

theorem reads_settleProduct : Reads policy before (fun _ => before) settleProduct := by
  refine reads_get.bind ?_
  intro machine
  split
  · split
    · refine reads_dropWaiting.bind ?_
      intro _
      refine reads_takeValue.bind ?_
      intro right
      exact reads_applyTop _ right
    · exact .pure rfl
  · exact .pure rfl

theorem reads_raise (count : Nat) : Reads policy before (fun _ => before) (raise count) := by
  induction count with
  | zero => exact .pure rfl
  | succ count ih =>
      refine reads_takeValue.bind ?_
      intro exponent
      refine reads_takeValue.bind ?_
      intro base
      refine reads_dropWaiting.bind ?_
      intro _
      refine (reads_record _ _).bind ?_
      intro _
      refine (reads_pushValue _).bind ?_
      intro _
      exact ih

theorem noRefusal_of_gather {stop : SumEnd} {rest : List (Sign × Float)} {values : List Float}
    {waiting : List Waiting} {fault : EvalError}
    (h : gather stop rest values waiting = .error fault) : NoRefusal fault := by
  refine kind_of_gather_error NoRefusal ?_ ?_ ?_ ?_ h
  · rintro name ⟨⟩
  · rintro name ⟨⟩
  · rintro name ⟨⟩
  · rintro op - - name ⟨⟩

theorem reads_takeSum (stop : SumEnd) : Reads policy before (fun _ => before) (takeSum stop) where
  ok {machine _ _} h := by
    obtain ⟨gathered, hg, _⟩ := gather_of_takeSum_ok h
    rw [takeSum_apply hg] at h
    cases h
    exact ⟨[], rfl, .of_names_eq_nil rfl rfl (Trace.steps_prefix_extend _ _)⟩
  error {machine _ _} h := by
    have hg := gather_of_takeSum_error h
    rw [takeSum_of_error hg] at h
    cases h
    exact ⟨[], List.nil_prefix, .refl _ _, fun name he => absurd he (noRefusal_of_gather hg name)⟩

theorem reads_readName (name : String) :
    Reads policy (.identifier name :: before) (fun _ => before) (readName policy name) where
  ok {machine _ _} h := by
    by_cases hr : Readable policy machine.vars name
    · rw [readName_of_readable hr] at h
      cases h
      refine ⟨[.identifier name], rfl, ?_, rfl, List.prefix_refl _⟩
      intro other hm
      obtain rfl : other = name := List.mem_singleton.mp hm
      exact hr
    · rw [readName_of_not_readable hr] at h
      cases h
  error {machine _ _} h := by
    by_cases hr : Readable policy machine.vars name
    · rw [readName_of_readable hr] at h
      cases h
    · rw [readName_of_not_readable hr] at h
      cases h
      refine ⟨[], List.nil_prefix, .refl _ _, ?_⟩
      intro other he
      obtain rfl : name = other := EvalError.unbound.inj he
      exact ⟨List.prefix_append _ _, hr⟩

theorem reads_readOperand (operand : Operand) :
    Reads policy (operand.token :: before) (fun _ => before)
      (readOperand policy operand.token) := by
  cases operand with
  | number value => exact .skip [.number value] rfl (.pure rfl)
  | named name => exact reads_readName name

theorem reads_pushOperand (operand : Operand) :
    Reads policy (operand.token :: before) (fun _ => before)
      (do pushValue (← readOperand policy operand.token)) := by
  refine (reads_readOperand operand).bind ?_
  intro value
  exact reads_pushValue value

/-- The operands of a chain are read in the order of the line. -/
theorem reads_operands (tokens : List Token) :
    Reads policy tokens (fun _ => (PowerChain.ofTokens tokens).rest)
      ((PowerChain.ofTokens tokens).operands.forM fun operand => do
        pushValue (← readOperand policy operand)) := by
  fun_induction PowerChain.ofTokens tokens with
  | case1 => exact .pure rfl
  | case2 token hop after chain ih =>
      obtain ⟨operand, rfl⟩ := Operand.exists_of_isOperand hop
      refine (reads_pushOperand operand).bind ?_
      intro _
      exact .skip [.operator .pow] rfl ih
  | case3 token rest hop =>
      obtain ⟨operand, rfl⟩ := Operand.exists_of_isOperand hop
      refine (reads_pushOperand operand).bind ?_
      intro _
      exact .pure rfl
  | case4 => exact .pure rfl

theorem reads_forM_pushWaiting (entries : List Waiting) :
    Reads policy before (fun _ => before) (entries.forM pushWaiting) := by
  induction entries with
  | nil => exact .pure rfl
  | cons entry entries ih =>
      refine (reads_pushWaiting entry).bind ?_
      intro _
      exact ih

theorem reads_takeChain (tokens : List Token) :
    Reads policy tokens (fun _ => (PowerChain.ofTokens tokens).rest)
      (takeChain policy position (.ofTokens tokens)) := by
  refine (reads_operands tokens).bind ?_
  intro _
  refine (reads_forM_pushWaiting _).bind ?_
  intro _
  split
  · exact .throw nofun
  · exact reads_raise _

theorem reads_takeProduct (op : Operator) (tokens : List Token) :
    Reads policy tokens (·.1) (takeProduct policy position op tokens) := by
  cases tokens with
  | nil => exact .throw nofun
  | cons token tokens =>
      rw [takeProduct]
      split
      · rename_i hop
        obtain ⟨operand, rfl⟩ := Operand.exists_of_isOperand hop
        refine (reads_readOperand operand).bind ?_
        intro right
        refine (reads_applyTop op right).bind ?_
        intro _
        exact .pure rfl
      · exact .throw nofun

/-- A step reads the names of the tokens that it consumes. -/
theorem reads_step (token : Token) (tokens : List Token) :
    Reads policy (token :: tokens) (·.1) (step policy position token tokens) := by
  cases token with
  | number value =>
      refine .skip [.number value] rfl ?_
      refine (reads_pushValue value).bind ?_
      intro _
      exact .pure rfl
  | identifier name =>
      refine (reads_readName name).bind ?_
      intro value
      refine (reads_pushValue value).bind ?_
      intro _
      exact .pure rfl
  | leftParen =>
      refine .skip [.leftParen] rfl ?_
      refine (reads_pushWaiting _).bind ?_
      intro _
      exact .pure rfl
  | rightParen =>
      refine .skip [.rightParen] rfl ?_
      refine (reads_takeSum .parenthesis).bind ?_
      intro total
      refine (reads_pushValue total).bind ?_
      intro _
      refine reads_settleProduct.bind ?_
      intro _
      exact .pure rfl
  | assign => exact .throw nofun
  | operator op =>
      refine .skip [.operator op] rfl ?_
      by_cases hp : op = .pow
      · subst hp
        refine (reads_pushWaiting _).bind ?_
        intro _
        refine (reads_takeChain tokens).bind ?_
        intro _
        refine reads_settleProduct.bind ?_
        intro _
        exact .pure rfl
      · rw [step]
        · refine reads_get.bind ?_
          intro machine
          simp only
          split
          · exact reads_takeProduct op tokens
          · refine (reads_pushWaiting _).bind ?_
            intro _
            exact .pure rfl
        · exact hp

theorem reads_readTokens (tokens : List Token) :
    Reads policy tokens (fun _ => []) (readTokens policy position tokens) := by
  induction position, tokens using readTokens.induct with
  | case1 position =>
      rw [readTokens]
      exact .pure rfl
  | case2 position token tokens ih =>
      rw [readTokens]
      refine (reads_step token tokens).bind ?_
      rintro ⟨rest, hs⟩
      exact ih rest hs

theorem reads_expression (tokens : List Token) :
    Reads policy tokens (fun _ => []) (expression policy position tokens) := by
  refine (reads_readTokens tokens).bind ?_
  intro _
  refine (reads_takeSum .line).bind ?_
  intro total
  refine reads_get.bind ?_
  intro machine
  split
  · exact .pure rfl
  · exact .throw nofun

end Run
end Reckoner
