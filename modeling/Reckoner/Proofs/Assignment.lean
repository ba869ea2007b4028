import Reckoner.Proofs.Table

/-! # Giving values to names

An assignment changes no value but that of its target, unbinds no name, and does
nothing when it is made again. -/

namespace Reckoner.Variables

variable {vars : Variables} {name other : String}

/-- An entry when a name has been given a value. -/
def given (name : String) (value : Float) (entry : Variable) : Variable :=
  if entry.name = name && !entry.constant then { entry with value } else entry

theorem name_given (name : String) (value : Float) (entry : Variable) :
    (given name value entry).name = entry.name := by
  unfold given
  split <;> rfl

theorem given_of_ne (value : Float) {entry : Variable} (hne : entry.name ≠ name) :
    given name value entry = entry := by
  simp [given, hne]

theorem given_given (name : String) (value : Float) (entry : Variable) :
    given name value (given name value entry) = given name value entry := by
  by_cases hc : (entry.name = name && !entry.constant) = true
  · simp only [given, if_pos hc]
  · simp only [given, if_neg hc]

theorem assign_of_bound (hb : (vars.value? name).isSome) (value : Float) :
    vars.assign name value = ⟨vars.entries.map (given name value)⟩ := by
  cases hg : vars.get? name with
  | none => simp [value?, hg] at hb
  | some entry =>
      simp only [assign, hg]
      rfl

theorem assign_of_unbound (hb : vars.value? name = none) (value : Float) :
    vars.assign name value = vars.append name value := by
  cases hg : vars.get? name with
  | none => simp only [assign, hg]
  | some entry => simp [value?, hg] at hb

theorem isSome_value?_assign (hb : (vars.value? other).isSome) (name : String) (value : Float) :
    ((vars.assign name value).value? other).isSome := by
  rw [isSome_value?_iff] at hb ⊢
  exact (vars.names_prefix_assign name value).subset hb

/-- An assignment changes the binding of its target alone: it overwrites a
value that may change, and binds a name that is not bound. -/
theorem get?_assign (vars : Variables) (name : String) (value : Float) (other : String) :
    (vars.assign name value).get? other =
      if name = other then
        some (((vars.get? name).map (given name value)).getD ⟨name, value, false⟩)
      else vars.get? other := by
  cases hg : vars.get? name with
  | none =>
      rw [assign, hg]
      simp only [get?_append]
      split
      · rename_i he
        rw [← he, hg]
        rfl
      · exact Option.or_none
  | some entry =>
      have hb : (vars.value? name).isSome := by simp [value?, hg]
      have hf : (vars.assign name value).get? other = (vars.get? other).map (given name value) := by
        rw [assign_of_bound hb]
        simp only [get?, List.find?_map, Function.comp_def, name_given]
      rw [hf]
      split
      · rename_i he
        rw [← he, hg]
        rfl
      · rename_i he
        refine (Option.map_congr ?_).trans Option.map_id'
        intro entry hm
        have hname : entry.name = other := by simpa using List.find?_some hm
        exact given_of_ne value (hname ▸ Ne.symm he)

theorem value?_assign_of_ne (hne : other ≠ name) (value : Float) :
    (vars.assign name value).value? other = vars.value? other := by
  rw [value?, get?_assign, if_neg (Ne.symm hne), value?]

/-- A name that has been bound just now is given another value. -/
theorem assign_append (hv : vars.value? name = none) (old value : Float) :
    (vars.append name old).assign name value = vars.append name value := by
  have hb : ((vars.append name old).value? name).isSome := by
    rw [value?_append, hv, if_pos rfl]
    rfl
  have hentries : vars.entries.map (given name value) = vars.entries := by
    refine (List.map_congr_left ?_).trans (List.map_id _)
    intro entry hm
    refine given_of_ne value ?_
    rintro rfl
    exact value?_eq_none_iff.mp hv (List.mem_map_of_mem hm)
  rw [assign_of_bound hb, append, List.map_append, hentries]
  simp [given, append]

/-- An assignment made twice is made once. -/
theorem assign_assign (vars : Variables) (name : String) (value : Float) :
    (vars.assign name value).assign name value = vars.assign name value := by
  cases hv : vars.value? name with
  | none => rw [assign_of_unbound hv, assign_append hv]
  | some old =>
      have hb : (vars.value? name).isSome := by
        rw [hv]
        rfl
      rw [assign_of_bound (isSome_value?_assign hb name value), assign_of_bound hb, List.map_map]
      congr 2
      funext entry
      exact given_given name value entry

/-- An assignment declares its target. -/
theorem assign_declare (vars : Variables) (name : String) (value : Float) :
    (vars.declare name).assign name value = vars.assign name value := by
  cases hv : vars.value? name with
  | none => rw [declare_of_unbound hv, assign_append hv, assign_of_unbound hv]
  | some old => rw [declare_of_bound hv]

theorem isSome_value?_declareAll {names : List String} (hm : name ∈ names) :
    ((vars.declareAll names).value? name).isSome := by
  induction names generalizing vars with
  | nil => cases hm
  | cons first names ih =>
      rcases List.mem_cons.mp hm with rfl | hm
      · have hb : ((vars.declare name).value? name).isSome := by
          rw [value?_declare, if_pos rfl, Option.isSome_or]
          exact Bool.or_true _
        rw [isSome_value?_iff, declareAll_cons, declareAll_eq_extend, names_extend]
        exact List.mem_append_left _ (isSome_value?_iff.mp hb)
      · exact ih hm

end Reckoner.Variables
