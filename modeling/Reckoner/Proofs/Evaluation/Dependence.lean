import Reckoner.Proofs.Evaluation.Congruence
import Reckoner.Proofs.Evaluation.Line

/-! # What an evaluation depends on

What an evaluation does is decided by its tokens and by what their names read as.
The rest of the table and the trace decide nothing: the same names are declared in
every table, and the same steps are recorded behind every trace. -/

namespace Reckoner

/-- The names of some tokens can be read in both tables or in neither, as the same values. -/
structure Agree (policy : NamePolicy) (tokens : List Token) (vars vars' : Variables) : Prop where
  readable {name : String} (hm : .identifier name ∈ tokens) :
    Run.Readable policy vars name ↔ Run.Readable policy vars' name
  read {name : String} (hm : .identifier name ∈ tokens) : vars.read name = vars'.read name

namespace Agree

variable {policy : NamePolicy} {tokens : List Token} {vars vars' : Variables}

theorem refl (policy : NamePolicy) (tokens : List Token) (vars : Variables) :
    Agree policy tokens vars vars :=
  ⟨fun _ => Iff.rfl, fun _ => rfl⟩

theorem readable_declare_iff {name other : String} :
    Run.Readable policy (vars.declare name) other ↔
      Run.Readable policy vars other ∨ name = other := by
  cases policy with
  | declare => simp [Run.Readable]
  | refuse => simp [Run.Readable, Variables.value?_declare]

theorem declare (h : Agree policy tokens vars vars') (name : String) :
    Agree policy tokens (vars.declare name) (vars'.declare name) where
  readable {other} hm := by
    rw [readable_declare_iff, readable_declare_iff, h.readable hm]
  read hm := by
    rw [Variables.read_declare, Variables.read_declare, h.read hm]

theorem declareAll (h : Agree policy tokens vars vars') (names : List String) :
    Agree policy tokens (vars.declareAll names) (vars'.declareAll names) := by
  induction names generalizing vars vars' with
  | nil => exact h
  | cons name names ih => exact ih (h.declare name)

/-- What has been read reads the same again. -/
theorem of_declareAll {read : List Token} (hr : Run.AllReadable policy vars read) :
    Agree policy tokens vars (vars.declareAll (names read)) where
  readable hm := by
    cases policy with
    | declare => exact ⟨fun _ => nofun, fun _ => nofun⟩
    | refuse => rw [hr.declareAll_eq]
  read hm := by rw [Variables.read_declareAll]

end Agree

namespace Run

variable {α β : Type} {policy : NamePolicy} {known : List Token}

/-- What a computation makes of a machine: the stacks that it leaves, the tokens
whose names it has read, and the steps that it has recorded. -/
structure Work (α : Type) where
  result : Except EvalError α
  values : Stack Float
  waiting : Stack Waiting
  read : List Token
  steps : List Step

/-- The end of a computation with some result and machine. -/
def finish : Except EvalError α → Machine → EStateM.Result EvalError Machine α
  | .ok a, final => .ok a final
  | .error fault, final => .error fault final

/-- The work on a table and behind a trace. -/
def Work.on (work : Work α) (vars : Variables) (trace : Trace) :
    EStateM.Result EvalError Machine α :=
  finish work.result
    ⟨work.values, work.waiting, vars.declareAll (names work.read), trace.extend work.steps⟩

/-- The computation does the same work on all tables that agree on the known
tokens, and behind every trace. It reads no other names than theirs. -/
def Determined (policy : NamePolicy) (known : List Token) (computation : Run α) : Prop :=
  ∀ values waiting vars, ∃ work : Work α, work.read ⊆ known ∧ AllReadable policy vars work.read ∧
    ∀ vars' trace, Agree policy known vars vars' →
      computation.run ⟨values, waiting, vars', trace⟩ = work.on vars' trace

namespace Determined

/-- What reads no name and records no step is decided by the stacks. -/
theorem of_stacks {computation : Run α}
    (h : ∀ values waiting, ∃ result values' waiting', ∀ vars trace,
      computation.run ⟨values, waiting, vars, trace⟩ =
        finish result ⟨values', waiting', vars, trace⟩) :
    Determined policy known computation := by
  intro values waiting vars
  obtain ⟨result, values', waiting', hr⟩ := h values waiting
  refine ⟨⟨result, values', waiting', [], []⟩, List.nil_subset _,
    allReadable_of_names_eq_nil rfl, ?_⟩
  intro vars' trace _
  rw [hr, Work.on, Trace.extend_nil]
  rfl

theorem pure (a : α) : Determined policy known (pure a : Run α) :=
  of_stacks fun values waiting => ⟨.ok a, values, waiting, fun _ _ => rfl⟩

theorem throw (fault : EvalError) : Determined policy known (throw fault : Run α) :=
  of_stacks fun values waiting => ⟨.error fault, values, waiting, fun _ _ => rfl⟩

theorem bind {first : Run α} {next : α → Run β} (hf : Determined policy known first)
    (hn : ∀ a, Determined policy known (next a)) : Determined policy known (first >>= next) := by
  intro values waiting vars
  obtain ⟨⟨result, values', waiting', read, steps⟩, hsub, hread, hwork⟩ := hf values waiting vars
  cases result with
  | error fault =>
      refine ⟨⟨.error fault, values', waiting', read, steps⟩, hsub, hread, ?_⟩
      intro vars' trace ha
      exact bind_of_error (hwork vars' trace ha)
  | ok a =>
      -- The tables still agree when the names read by the first part have been declared.
      obtain ⟨⟨result, values'', waiting'', read', steps'⟩, hsub', hread', hwork'⟩ :=
        hn a values' waiting' (vars.declareAll (names read))
      refine ⟨⟨result, values'', waiting'', read ++ read', steps ++ steps'⟩,
        List.append_subset.mpr ⟨hsub, hsub'⟩, allReadable_append.mpr ⟨hread, hread.of_declareAll hread'⟩, ?_⟩
      intro vars' trace ha
      rw [bind_of_ok (hwork vars' trace ha),
        hwork' _ _ (ha.declareAll (names read))]
      simp only [Work.on, names_append, Variables.declareAll_append, Trace.extend_append]

/-- What is done next may depend on the stacks. -/
theorem get_bind {next : Machine → Run α} (hn : ∀ machine, Determined policy known (next machine))
    (hs : ∀ machine vars trace, next { machine with vars, trace } = next machine) :
    Determined policy known (get >>= next) := by
  intro values waiting vars
  -- Any machine with these stacks gives the same continuation.
  obtain ⟨work, hsub, hread, hwork⟩ :=
    hn ⟨values, waiting, vars, .start false⟩ values waiting vars
  refine ⟨work, hsub, hread, ?_⟩
  intro vars' trace ha
  rw [bind_of_ok get_apply, ← hwork vars' trace ha]
  exact congrArg (EStateM.run · _) (hs ⟨values, waiting, vars, .start false⟩ vars' trace)

end Determined

theorem determined_record (operation : String) (result : Float) :
    Determined policy known (record operation result) := by
  intro values waiting vars
  refine ⟨⟨.ok (), values, waiting, [], [⟨operation, result⟩]⟩, List.nil_subset _,
    allReadable_of_names_eq_nil rfl, ?_⟩
  intro vars' trace _
  rfl

theorem determined_pushValue (value : Float) : Determined policy known (pushValue value) :=
  .of_stacks fun values waiting => ⟨.ok (), values.push value, waiting, fun _ _ => rfl⟩

theorem determined_pushWaiting (entry : Waiting) :
    Determined policy known (pushWaiting entry) :=
  .of_stacks fun values waiting => ⟨.ok (), values, waiting.push entry, fun _ _ => rfl⟩

theorem determined_dropWaiting : Determined policy known dropWaiting :=
  .of_stacks fun values waiting =>
    ⟨.ok (), values, (waiting.pop?.map (·.2)).getD waiting, fun _ _ => rfl⟩

theorem determined_takeValue : Determined policy known takeValue := by
  refine .of_stacks fun values waiting => ?_
  obtain ⟨values⟩ := values
  cases values with
  | nil => exact ⟨.error .noValue, ⟨[]⟩, waiting, fun _ _ => rfl⟩
  | cons value values => exact ⟨.ok value, ⟨values⟩, waiting, fun _ _ => rfl⟩

theorem determined_takeSum (stop : SumEnd) : Determined policy known (takeSum stop) := by
  rintro ⟨values⟩ ⟨waiting⟩ vars
  cases hg : gather stop [] values waiting with
  | error fault =>
      refine ⟨⟨.error fault, ⟨values⟩, ⟨waiting⟩, [], []⟩, List.nil_subset _,
        allReadable_of_names_eq_nil rfl, ?_⟩
      intro vars' trace _
      rw [takeSum_of_error hg, Work.on, Trace.extend_nil]
      rfl
  | ok gathered =>
      refine ⟨⟨.ok gathered.sum.total, ⟨gathered.values⟩, ⟨gathered.waiting⟩, [],
        gathered.sum.stepsIn stop⟩, List.nil_subset _, allReadable_of_names_eq_nil rfl, ?_⟩
      intro vars' trace _
      rw [takeSum_apply hg]
      rfl

/-- Reading a name is decided by what it reads as. -/
theorem determined_readName {name : String} (hm : .identifier name ∈ known) :
    Determined policy known (readName policy name) := by
  intro values waiting vars
  by_cases hr : Readable policy vars name
  · have hread : AllReadable policy vars [.identifier name] := by
      intro other hother
      obtain rfl : other = name := List.mem_singleton.mp hother
      exact hr
    refine ⟨⟨.ok (vars.read name), values, waiting, [.identifier name], []⟩,
      List.cons_subset.mpr ⟨hm, List.nil_subset _⟩, hread, ?_⟩
    intro vars' trace ha
    rw [readName_of_readable ((ha.readable hm).mp hr), ← ha.read hm, Work.on, Trace.extend_nil]
    rfl
  · refine ⟨⟨.error (.unbound name), values, waiting, [], []⟩, List.nil_subset _,
      allReadable_of_names_eq_nil rfl, ?_⟩
    intro vars' trace ha
    rw [readName_of_not_readable (mt (ha.readable hm).mpr hr), Work.on, Trace.extend_nil]
    rfl

/-- Every operation on known tokens does the same work. -/
theorem congruence_determined (policy : NamePolicy) (known : List Token) :
    Congruence policy policy known fun computation _ => Determined policy known computation where
  returns a := .pure a
  throws {_ fault} _ := .throw fault
  binds hf hn := hf.bind hn
  gets hn hs _ := .get_bind hn hs
  records := determined_record
  pushesValue := determined_pushValue
  takesValue := determined_takeValue
  pushesWaiting := determined_pushWaiting
  dropsWaiting := determined_dropWaiting
  takesSum := determined_takeSum
  readsName := determined_readName

/-- An expression does the same work on all tables in which its names read the same. -/
theorem determined_expression (policy : NamePolicy) (position : Nat) (tokens : List Token) :
    Determined policy tokens (expression policy position tokens) :=
  (congruence_determined policy tokens).expression position (List.Subset.refl tokens)

end Run

/-- What a line makes of a table and a trace: its result, the tokens whose names
it has read, and the steps that it has recorded. -/
structure LineWork where
  result : Except EvalError Evaluation
  read : List Token
  steps : List Step

/-- Gives the value of a line to its target, if it has both. -/
def Variables.receive (vars : Variables) : Except EvalError Evaluation → Variables
  | .ok ⟨value, some name⟩ => vars.assign name value
  | _ => vars

def LineWork.on (work : LineWork) (vars : Variables) (trace : Trace) : Outcome :=
  ⟨work.result, (vars.declareAll (names work.read)).receive work.result, trace.extend work.steps⟩

/-- A line does the same work on all tables in which its scanned names read the
same, and behind every trace. It reads scanned names only, and only an assignment
has a target. -/
theorem exists_lineWork (policy : NamePolicy) (tokens : List Token) (vars : Variables) :
    ∃ work : LineWork, work.read ⊆ scanned tokens ∧ Run.AllReadable policy vars work.read ∧
      (∀ name value, work.result = .ok ⟨value, some name⟩ →
        lineTokens (some name) (scanned tokens) = tokens) ∧
      ∀ vars' trace, Agree policy (scanned tokens) vars vars' →
        evaluate policy tokens vars' trace = work.on vars' trace := by
  rcases line_cases tokens with ⟨fault, _, he⟩ | ⟨target, hne, hs⟩
  · refine ⟨⟨.error fault, [], []⟩, List.nil_subset _, Run.allReadable_of_names_eq_nil rfl,
      nofun, ?_⟩
    intro vars' trace _
    rw [he, LineWork.on, Trace.extend_nil]
    rfl
  · obtain ⟨⟨result, values, waiting, read, steps⟩, hsub, hread, hwork⟩ :=
      Run.determined_expression policy (offset target) (scanned tokens) .empty .empty vars
    have hline : ∀ vars' trace, Agree policy (scanned tokens) vars vars' →
        evaluate policy tokens vars' trace = conclude target (Run.finish result
          ⟨values, waiting, vars'.declareAll (names read), trace.extend steps⟩) := by
      intro vars' trace ha
      rw [evaluate_of_scanned policy vars' trace hne hs, hwork vars' trace ha]
      rfl
    cases result with
    | error fault => exact ⟨⟨.error fault, read, steps⟩, hsub, hread, nofun, hline⟩
    | ok value =>
        cases target with
        | none => exact ⟨⟨.ok ⟨value, none⟩, read, steps⟩, hsub, hread, nofun, hline⟩
        | some name =>
            refine ⟨⟨.ok ⟨value, some name⟩, read,
              steps ++ [⟨name ++ " = " ++ Binary64.text value, value⟩]⟩, hsub, hread, ?_, ?_⟩
            · intro name' value' he
              cases he
              exact hs
            · intro vars' trace ha
              rw [hline vars' trace ha, LineWork.on, Trace.extend_append]
              rfl

end Reckoner
