import Reckoner.Variables

/-! # Reading names

A name that is not bound reads as zero. Declaring names changes no reading, so
the order in which an expression declares its names does not matter to its
value. -/

namespace Reckoner.Variables

variable {vars : Variables} {name other : String}

/-- What a name reads as when unbound names are declared. -/
def read (vars : Variables) (name : String) : Float := (vars.value? name).getD 0

/-- Declares some names in turn. -/
def declareAll (vars : Variables) (names : List String) : Variables :=
  names.foldl declare vars

@[simp] theorem declareAll_nil : vars.declareAll [] = vars := rfl

@[simp] theorem declareAll_cons (names : List String) :
    vars.declareAll (name :: names) = (vars.declare name).declareAll names := rfl

theorem declareAll_append (first second : List String) :
    vars.declareAll (first ++ second) = (vars.declareAll first).declareAll second :=
  List.foldl_append

theorem value?_append (value : Float) :
    (vars.append name value).value? other =
      (vars.value? other).or (if name = other then some value else none) := by
  simp only [value?, get?_append]
  cases vars.get? other with
  | some entry => rfl
  | none => split <;> rfl

theorem declare_of_bound {value : Float} (hv : vars.value? name = some value) :
    vars.declare name = vars := by
  cases hg : vars.get? name with
  | none => simp [value?, hg] at hv
  | some entry => simp only [declare, hg]

theorem declare_of_unbound (hv : vars.value? name = none) :
    vars.declare name = vars.append name 0 := by
  cases hg : vars.get? name with
  | none => simp only [declare, hg]
  | some entry => simp [value?, hg] at hv

/-- A declaration keeps every binding and binds its name to zero. -/
theorem get?_declare (vars : Variables) (name other : String) :
    (vars.declare name).get? other =
      (vars.get? other).or (if name = other then some ⟨name, 0, false⟩ else none) := by
  cases hg : vars.get? name with
  | none => rw [← get?_append, declare, hg]
  | some entry =>
      simp only [declare, hg]
      by_cases he : name = other
      · rw [← he, hg, Option.some_or]
      · rw [if_neg he, Option.or_none]

theorem value?_declare (vars : Variables) (name other : String) :
    (vars.declare name).value? other =
      (vars.value? other).or (if name = other then some 0 else none) := by
  simp only [value?, get?_declare]
  cases vars.get? other with
  | some entry => rfl
  | none => split <;> rfl

/-- Of all declarations, those of a name that is not bound have an effect on it. -/
theorem get?_declareAll (vars : Variables) (names : List String) (other : String) :
    (vars.declareAll names).get? other =
      (vars.get? other).or (if other ∈ names then some ⟨other, 0, false⟩ else none) := by
  induction names generalizing vars with
  | nil => rw [declareAll_nil, if_neg List.not_mem_nil, Option.or_none]
  | cons name names ih =>
      rw [declareAll_cons, ih, get?_declare, Option.or_assoc]
      by_cases he : name = other
      · subst he
        rw [if_pos rfl, if_pos List.mem_cons_self, Option.some_or]
      · rw [if_neg he, Option.none_or]
        simp only [List.mem_cons, Ne.symm he, false_or]

@[simp] theorem read_declare (vars : Variables) (name : String) :
    (vars.declare name).read = vars.read := by
  funext other
  simp only [read, value?_declare]
  cases vars.value? other with
  | some value => rfl
  | none => split <;> rfl

@[simp] theorem read_declareAll (vars : Variables) (names : List String) :
    (vars.declareAll names).read = vars.read := by
  induction names generalizing vars with
  | nil => rfl
  | cons name names ih => rw [declareAll_cons, ih, read_declare]

/-- A bound name stays bound. -/
theorem isSome_value?_declare (hb : (vars.value? other).isSome) :
    ((vars.declare name).value? other).isSome := by
  rw [value?_declare, Option.isSome_or, hb, Bool.true_or]

end Reckoner.Variables
