import Reckoner.Evaluation.Evaluate
import Reckoner.Proofs.Evaluation.Grammar
import Reckoner.Proofs.Trace
import Reckoner.Proofs.Variables

/-! # What each operation does to the machine

One equation for each operation on machines whose stacks are written out, and
the rules by which a sequence of operations succeeds or fails. Later modules
use these and do not open the operations again. -/

namespace Reckoner

/-- What waits on top leaves the value behind it alone: it is a group, an
addition or a subtraction, or nothing waits. -/
def Quiet (waiting : List Waiting) : Prop :=
  ∀ op, waiting.head? = some (.operator op) → op.precedence = .sum

theorem quiet_nil : Quiet [] := fun _ h => nomatch h

theorem quiet_group (waiting : List Waiting) : Quiet (.group :: waiting) := fun _ h => nomatch h

theorem quiet_sum (op : SumOperator) (waiting : List Waiting) :
    Quiet (.operator op :: waiting) := by
  intro op' h
  cases h
  exact op.2

theorem Quiet.ne_product {waiting below : List Waiting} (hq : Quiet waiting)
    (op : ProductOperator) : waiting ≠ .operator op.1 :: below := by
  rintro rfl
  have hs : op.1.precedence = .sum := hq _ rfl
  rw [op.2] at hs
  cases hs

/-- The step of an operator that is applied. -/
def Operator.step (op : Operator) (left right : Float) : Step :=
  ⟨Binary64.text left ++ " " ++ op.symbol.toString ++ " " ++ Binary64.text right,
    op.apply left right⟩

namespace Run

variable {α β : Type} {machine final : Machine} {policy : NamePolicy}
variable {values : List Float} {waiting : List Waiting} {vars : Variables} {trace : Trace}

theorem bind_of_ok {first : Run α} {next : α → Run β} {a : α} {middle : Machine}
    (hf : first.run machine = .ok a middle) :
    (first >>= next).run machine = (next a).run middle := by
  simp only [EStateM.run, bind, EStateM.bind] at hf ⊢
  rw [hf]

theorem bind_of_error {first : Run α} {next : α → Run β} {fault : EvalError}
    (hf : first.run machine = .error fault final) :
    (first >>= next).run machine = .error fault final := by
  simp only [EStateM.run, bind, EStateM.bind] at hf ⊢
  rw [hf]

theorem bind_eq_ok_iff {first : Run α} {next : α → Run β} {b : β} :
    (first >>= next).run machine = .ok b final ↔
      ∃ a middle, first.run machine = .ok a middle ∧ (next a).run middle = .ok b final := by
  cases hf : first.run machine with
  | ok a middle =>
      rw [bind_of_ok hf]
      constructor
      · intro hn
        exact ⟨a, middle, rfl, hn⟩
      · rintro ⟨a', middle', he, hn⟩
        cases he
        exact hn
  | error fault middle => simp [bind_of_error hf]

theorem bind_eq_error_iff {first : Run α} {next : α → Run β} {fault : EvalError} :
    (first >>= next).run machine = .error fault final ↔
      first.run machine = .error fault final ∨
        ∃ a middle, first.run machine = .ok a middle ∧
          (next a).run middle = .error fault final := by
  cases hf : first.run machine with
  | ok a middle =>
      rw [bind_of_ok hf]
      constructor
      · intro hn
        exact .inr ⟨a, middle, rfl, hn⟩
      · rintro (he | ⟨a', middle', he, hn⟩)
        · cases he
        · cases he
          exact hn
  | error fault middle => simp [bind_of_error hf]

@[simp] theorem pure_apply (a : α) : (pure a : Run α).run machine = .ok a machine := rfl

@[simp] theorem throw_apply (fault : EvalError) :
    (throw fault : Run α).run machine = .error fault machine := rfl

@[simp] theorem get_apply : (get : Run Machine).run machine = .ok machine machine := rfl

@[simp] theorem set_apply (next : Machine) : (set next : Run PUnit).run machine = .ok () next := rfl

@[simp] theorem record_apply (operation : String) (result : Float) :
    (record operation result).run machine =
      .ok () { machine with trace := machine.trace.add operation result } := rfl

@[simp] theorem pushValue_apply (value : Float) :
    (pushValue value).run ⟨⟨values⟩, ⟨waiting⟩, vars, trace⟩ =
      .ok () ⟨⟨value :: values⟩, ⟨waiting⟩, vars, trace⟩ := rfl

@[simp] theorem pushWaiting_apply (entry : Waiting) :
    (pushWaiting entry).run ⟨⟨values⟩, ⟨waiting⟩, vars, trace⟩ =
      .ok () ⟨⟨values⟩, ⟨entry :: waiting⟩, vars, trace⟩ := rfl

@[simp] theorem takeValue_nil :
    takeValue.run ⟨⟨[]⟩, ⟨waiting⟩, vars, trace⟩ = .error .noValue ⟨⟨[]⟩, ⟨waiting⟩, vars, trace⟩ :=
  rfl

@[simp] theorem takeValue_cons (value : Float) :
    takeValue.run ⟨⟨value :: values⟩, ⟨waiting⟩, vars, trace⟩ =
      .ok value ⟨⟨values⟩, ⟨waiting⟩, vars, trace⟩ := rfl

@[simp] theorem dropWaiting_cons (entry : Waiting) :
    dropWaiting.run ⟨⟨values⟩, ⟨entry :: waiting⟩, vars, trace⟩ =
      .ok () ⟨⟨values⟩, ⟨waiting⟩, vars, trace⟩ := rfl

@[simp] theorem applyTop_nil (op : Operator) (right : Float) :
    (applyTop op right).run ⟨⟨[]⟩, ⟨waiting⟩, vars, trace⟩ =
      .error .noValue ⟨⟨[]⟩, ⟨waiting⟩, vars, trace⟩ := rfl

theorem applyTop_cons (op : Operator) (left right : Float) :
    (applyTop op right).run ⟨⟨left :: values⟩, ⟨waiting⟩, vars, trace⟩ =
      .ok () ⟨⟨op.apply left right :: values⟩, ⟨waiting⟩, vars,
        trace.extend [op.step left right]⟩ := rfl

theorem settleProduct_of_quiet (hq : Quiet waiting) :
    settleProduct.run ⟨⟨values⟩, ⟨waiting⟩, vars, trace⟩ =
      .ok () ⟨⟨values⟩, ⟨waiting⟩, vars, trace⟩ := by
  cases waiting with
  | nil => rfl
  | cons entry below =>
      cases entry with
      | group => rfl
      | operator op =>
          have hs : op.precedence = .sum := hq op rfl
          simp [settleProduct, bind_of_ok get_apply, Stack.peek?, hs]

/-- A product that waits is applied to the two values on top. -/
theorem settleProduct_of_product (op : ProductOperator) (left right : Float) :
    settleProduct.run ⟨⟨right :: left :: values⟩, ⟨.operator op :: waiting⟩, vars, trace⟩ =
      .ok () ⟨⟨op.1.apply left right :: values⟩, ⟨waiting⟩, vars,
        trace.extend [op.1.step left right]⟩ := by
  simp only [settleProduct, bind_of_ok get_apply, Stack.peek?, List.head?_cons, op.2, if_true]
  rw [bind_of_ok (dropWaiting_cons _), bind_of_ok (takeValue_cons _), applyTop_cons]

/-- A name that may be read under a policy: only a refused unbound name may not. -/
def Readable (policy : NamePolicy) (vars : Variables) (name : String) : Prop :=
  policy = .refuse → (vars.value? name).isSome

theorem readName_of_readable {name : String} (hr : Readable policy vars name) :
    (readName policy name).run ⟨⟨values⟩, ⟨waiting⟩, vars, trace⟩ =
      .ok (vars.read name) ⟨⟨values⟩, ⟨waiting⟩, vars.declare name, trace⟩ := by
  rw [readName, bind_of_ok get_apply]
  cases hv : vars.value? name with
  | some value => simp only [hv, pure_apply, Variables.read, Variables.declare_of_bound hv,
      Option.getD_some]
  | none =>
      cases policy with
      | declare => simp only [hv, bind_of_ok (set_apply _), pure_apply, Variables.read,
          Option.getD_none]
      | refuse => simp [Readable, hv] at hr

theorem readName_of_not_readable {name : String} (hr : ¬ Readable policy vars name) :
    (readName policy name).run ⟨⟨values⟩, ⟨waiting⟩, vars, trace⟩ =
      .error (.unbound name) ⟨⟨values⟩, ⟨waiting⟩, vars, trace⟩ := by
  simp only [Readable, Classical.not_imp, Bool.not_eq_true, Option.isSome_eq_false_iff,
    Option.isNone_iff_eq_none] at hr
  obtain ⟨rfl, hv⟩ := hr
  rw [readName, bind_of_ok get_apply]
  simp only [hv, throw_apply]

/-- All names among some tokens may be read. -/
def AllReadable (policy : NamePolicy) (vars : Variables) (tokens : List Token) : Prop :=
  ∀ name ∈ names tokens, Readable policy vars name

theorem allReadable_of_names_eq_nil {tokens : List Token} (hn : names tokens = []) :
    AllReadable policy vars tokens := by
  intro name hm
  rw [hn] at hm
  cases hm

theorem allReadable_append {first second : List Token} :
    AllReadable policy vars (first ++ second) ↔
      AllReadable policy vars first ∧ AllReadable policy vars second := by
  simp only [AllReadable, names_append, List.mem_append, or_imp, forall_and]

/-- Declaring further names refuses none that could be read. -/
theorem AllReadable.declareAll {tokens : List Token} (hr : AllReadable policy vars tokens)
    (declared : List String) : AllReadable policy (vars.declareAll declared) tokens := by
  induction declared generalizing vars with
  | nil => exact hr
  | cons name declared ih =>
      exact ih fun other hm hp => Variables.isSome_value?_declare (hr other hm hp)

/-- Where unbound names are refused, reading declares nothing. -/
theorem AllReadable.declareAll_eq {tokens : List Token} (hr : AllReadable .refuse vars tokens) :
    vars.declareAll (names tokens) = vars := by
  have hb : ∀ name ∈ names tokens, (vars.value? name).isSome := fun name hm => hr name hm rfl
  generalize names tokens = read at hb
  induction read with
  | nil => rfl
  | cons name read ih =>
      obtain ⟨value, hv⟩ := Option.isSome_iff_exists.mp (hb name List.mem_cons_self)
      rw [Variables.declareAll_cons, Variables.declare_of_bound hv]
      exact ih fun other hm => hb other (List.mem_cons_of_mem _ hm)

/-- Names that could be read behind others could be read before them. -/
theorem AllReadable.of_declareAll {first second : List Token} (hf : AllReadable policy vars first)
    (hs : AllReadable policy (vars.declareAll (names first)) second) :
    AllReadable policy vars second := by
  cases policy with
  | declare => exact fun _ _ hp => nomatch hp
  | refuse => rwa [hf.declareAll_eq] at hs

theorem readOperand_of_readable {operand : Operand}
    (hr : AllReadable policy vars [operand.token]) :
    (readOperand policy operand.token).run ⟨⟨values⟩, ⟨waiting⟩, vars, trace⟩ =
      .ok (operand.value vars.read)
        ⟨⟨values⟩, ⟨waiting⟩, vars.declareAll (names [operand.token]), trace⟩ := by
  cases operand with
  | number value => rfl
  | named name => exact readName_of_readable (hr name (by simp [names, Operand.token, Token.name?]))

end Run
end Reckoner
