import Reckoner.Proofs.Evaluation.Congruence
import Reckoner.Proofs.Evaluation.Line
import Reckoner.Proofs.Evaluation.NameOrder

/-! # The two policies side by side

An evaluation that refuses unbound names and one that declares them do the same
until the first one refuses a name. From there on the other one goes on, behind
the same steps and with that name as its first new entry. -/

namespace Reckoner

/-- The second machine has the names of the first one in their places, and its steps. -/
structure Grows (before after : Machine) : Prop where
  names : before.vars.names <+: after.vars.names
  steps : before.trace.steps <+: after.trace.steps

theorem Grows.refl (machine : Machine) : Grows machine machine :=
  ⟨List.prefix_refl _, List.prefix_refl _⟩

theorem Grows.trans {first second third : Machine} (h : Grows first second)
    (h' : Grows second third) : Grows first third :=
  ⟨h.names.trans h'.names, h.steps.trans h'.steps⟩

theorem Effect.grows {policy : NamePolicy} {before after : Machine} {piece : List Token}
    (h : Effect policy before piece after) : Grows before after where
  names := by
    rw [h.vars_eq_extend, Variables.names_extend]
    exact List.prefix_append _ _
  steps := h.steps

/-- The machine in which a name has been declared that was to be refused. -/
def Machine.declaring (machine : Machine) (name : String) : Machine :=
  { machine with vars := machine.vars.append name 0 }

namespace Run

variable {α β : Type}

/-- The machine that a computation leaves, whether it succeeds or fails. -/
def last (computation : Run α) (machine : Machine) : Machine :=
  match computation.run machine with
  | .ok _ final => final
  | .error _ final => final

theorem last_of_ok {computation : Run α} {machine final : Machine} {a : α}
    (h : computation.run machine = .ok a final) : last computation machine = final := by
  rw [last, h]

theorem last_of_error {computation : Run α} {machine final : Machine} {fault : EvalError}
    (h : computation.run machine = .error fault final) : last computation machine = final := by
  rw [last, h]

theorem last_bind {first : Run α} {next : α → Run β} {machine middle : Machine} {a : α}
    (h : first.run machine = .ok a middle) :
    last (first >>= next) machine = last (next a) middle := by
  rw [last, last, bind_of_ok h]

theorem Reads.grows {policy : NamePolicy} {before : List Token} {after : α → List Token}
    {computation : Run α} (h : Reads policy before after computation) (machine : Machine) :
    Grows machine (last computation machine) := by
  cases hr : computation.run machine with
  | ok a final =>
      obtain ⟨piece, _, he⟩ := h.ok hr
      rw [last_of_ok hr]
      exact he.grows
  | error fault final =>
      obtain ⟨piece, _, he, _⟩ := h.error hr
      rw [last_of_error hr]
      exact he.grows

/-- The computation refuses a name. -/
def Refuses (computation : Run α) (machine : Machine) : Prop :=
  ∃ name final, computation.run machine = .error (.unbound name) final

/-- Where unbound names are declared none is refused. -/
theorem Reads.not_refuses {before : List Token} {after : α → List Token} {computation : Run α}
    (h : Reads .declare before after computation) (machine : Machine) :
    ¬ Refuses computation machine := by
  rintro ⟨name, final, hr⟩
  obtain ⟨_, _, _, hu⟩ := h.error hr
  exact (hu name rfl).2 nofun

/-- The lenient computation does what the strict one does, unless that refuses
a name. Then it declares the name and goes on. -/
structure Follows (strict lenient : Run α) : Prop where
  agree {machine : Machine} (h : ¬ Refuses strict machine) :
    lenient.run machine = strict.run machine
  refused {machine final : Machine} {name : String}
    (h : strict.run machine = .error (.unbound name) final) :
    Grows (final.declaring name) (last lenient machine)
  grows (machine : Machine) : Grows machine (last lenient machine)

/-- A computation that reads no name is the same under both policies. -/
theorem Follows.same {computation : Run α}
    (h : ∀ tokens, Reads .declare tokens (fun _ => tokens) computation) :
    Follows computation computation where
  agree _ := rfl
  refused {machine final name} hr := absurd ⟨name, final, hr⟩ ((h []).not_refuses machine)
  grows machine := (h []).grows machine

theorem Follows.bind {first first' : Run α} {next next' : α → Run β} (hf : Follows first first')
    (hn : ∀ a, Follows (next a) (next' a)) : Follows (first >>= next) (first' >>= next') := by
  have hlast : ∀ machine, Grows (last first' machine) (last (first' >>= next') machine) := by
    intro machine
    cases hr : first'.run machine with
    | ok a middle =>
        rw [last_of_ok hr, last_bind hr]
        exact (hn a).grows middle
    | error fault final =>
        rw [last_of_error hr, last_of_error (bind_of_error hr)]
        exact .refl final
  constructor
  · intro machine h
    have hfirst : ¬ Refuses first machine := by
      rintro ⟨name, final, hr⟩
      exact h ⟨name, final, bind_of_error hr⟩
    have ha := hf.agree hfirst
    cases hr : first.run machine with
    | error fault final =>
        rw [hr] at ha
        rw [bind_of_error hr, bind_of_error ha]
    | ok a middle =>
        have hnext : ¬ Refuses (next a) middle := by
          rintro ⟨name, final, hr'⟩
          exact h ⟨name, final, by rw [bind_of_ok hr, hr']⟩
        rw [hr] at ha
        rw [bind_of_ok hr, bind_of_ok ha, (hn a).agree hnext]
  · intro machine final name h
    rcases bind_eq_error_iff.mp h with h | ⟨a, middle, hr, h⟩
    · exact (hf.refused h).trans (hlast machine)
    · have ha : first'.run machine = .ok a middle := by
        rw [hf.agree ?_, hr]
        rintro ⟨name', final', hr'⟩
        rw [hr] at hr'
        cases hr'
      rw [last_bind ha]
      exact (hn a).refused h
  · intro machine
    exact (hf.grows machine).trans (hlast machine)

theorem readable_declare (vars : Variables) (name : String) : Readable .declare vars name := nofun

/-- Only reading a name tells the policies apart. -/
theorem follows_readName (name : String) :
    Follows (readName .refuse name) (readName .declare name) where
  agree {machine} h := by
    by_cases hr : Readable .refuse machine.vars name
    · rw [readName_of_readable hr, readName_of_readable (readable_declare _ name)]
    · exact absurd ⟨name, machine, readName_of_not_readable hr⟩ h
  refused {machine final other} h := by
    by_cases hr : Readable .refuse machine.vars name
    · rw [readName_of_readable hr] at h
      cases h
    · rw [readName_of_not_readable hr] at h
      cases h
      have hv : machine.vars.value? name = none := by
        simpa [Readable] using hr
      rw [last_of_ok (readName_of_readable (readable_declare _ name)),
        Variables.declare_of_unbound hv]
      exact .refl _
  grows machine := by
    have hr : Reads .declare [.identifier name] (fun _ => []) (readName .declare name) :=
      reads_readName name
    exact hr.grows machine

/-- Every other operation is the same under both policies. -/
theorem congruence_follows (known : List Token) :
    Congruence .refuse .declare known Follows where
  returns _ := .same fun _ => .pure rfl
  throws hf := .same fun _ => .throw hf
  binds hf hn := hf.bind hn
  gets hn _ _ := (Follows.same fun _ => reads_get).bind hn
  records operation result := .same fun _ => reads_record operation result
  pushesValue value := .same fun _ => reads_pushValue value
  takesValue := .same fun _ => reads_takeValue
  pushesWaiting entry := .same fun _ => reads_pushWaiting entry
  dropsWaiting := .same fun _ => reads_dropWaiting
  takesSum stop := .same fun _ => reads_takeSum stop
  readsName {name} _ := follows_readName name

theorem follows_expression (position : Nat) (tokens : List Token) :
    Follows (expression .refuse position tokens) (expression .declare position tokens) :=
  (congruence_follows tokens).expression position (List.Subset.refl tokens)

end Run

/-- Concluding a line keeps the names in their places, and the steps. -/
theorem conclude_grows (target : Option String) (computation : Run Float) (machine : Machine) :
    (Run.last computation machine).vars.names <+:
        (conclude target (computation.run machine)).vars.names ∧
      (Run.last computation machine).trace.steps <+:
        (conclude target (computation.run machine)).trace.steps := by
  cases hr : computation.run machine with
  | error fault final =>
      rw [Run.last_of_error hr]
      exact ⟨List.prefix_refl _, List.prefix_refl _⟩
  | ok value final =>
      rw [Run.last_of_ok hr]
      cases target with
      | none => exact ⟨List.prefix_refl _, List.prefix_refl _⟩
      | some name =>
          exact ⟨final.vars.names_prefix_assign name value, final.trace.steps_prefix_extend _⟩

/-- The policies agree on an evaluation unless a name is refused. Then it is the
first unbound name of the line, and the evaluation that declares it instead has
it as its first new entry and goes on behind the same steps. -/
theorem evaluate_refuse_declare (tokens : List Token) (vars : Variables) (trace : Trace) :
    ((∀ name, (evaluate .refuse tokens vars trace).result ≠ .error (.unbound name)) →
      evaluate .declare tokens vars trace = evaluate .refuse tokens vars trace) ∧
    ∀ name, (evaluate .refuse tokens vars trace).result = .error (.unbound name) →
      name ∉ vars.names ∧
      (∃ front back, scanned tokens = front ++ .identifier name :: back ∧
        ∀ other ∈ names front, other ∈ vars.names) ∧
      vars.names ++ [name] <+: (evaluate .declare tokens vars trace).vars.names ∧
      (evaluate .refuse tokens vars trace).trace.steps <+:
        (evaluate .declare tokens vars trace).trace.steps := by
  rcases line_cases tokens with ⟨fault, hfault, he⟩ | ⟨target, hne, hs⟩
  · rw [he, he]
    refine ⟨fun _ => rfl, ?_⟩
    intro name h
    cases h
    simp at hfault
  · have hl := fun policy => evaluate_lineTokens policy vars trace hne (congrArg scanned hs)
    simp only [hs] at hl
    have hfollows := Run.follows_expression (offset target) (scanned tokens)
    rw [hl, hl]
    constructor
    · intro h
      rw [hfollows.agree]
      rintro ⟨name, final, hr⟩
      exact h name (conclude_eq_error_iff.mpr ⟨final, hr⟩)
    · intro name h
      obtain ⟨final, hr⟩ := conclude_eq_error_iff.mp h
      obtain ⟨front, _, heffect, hu⟩ := (Run.reads_expression (scanned tokens)).error hr
      obtain ⟨⟨back, hback⟩, hname⟩ := hu name rfl
      have hgrows := hfollows.refused hr
      obtain ⟨hnames, hsteps⟩ := conclude_grows target
        (Run.expression .declare (offset target) (scanned tokens)) ⟨.empty, .empty, vars, trace⟩
      refine ⟨?_, ⟨front, back, ?_, ?_⟩, ?_, ?_⟩
      · intro hb
        exact hname fun _ => Variables.isSome_value?_iff.mpr hb
      · rw [← hback, List.append_assoc, List.singleton_append]
      · intro other hm
        exact Variables.isSome_value?_iff.mp (heffect.readable other hm rfl)
      · have hf := hgrows.names
        rw [Machine.declaring, heffect.vars_eq_of_refuse, Variables.names_append] at hf
        exact hf.trans hnames
      · rw [hr]
        exact hgrows.steps.trans hsteps

end Reckoner
