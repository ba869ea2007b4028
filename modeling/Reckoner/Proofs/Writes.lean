import Reckoner.Proofs.Assignment

/-! # Writes to the table

The table starts with its two constants and is then written to by declarations and
assignments. Names keep their places and stay what they are, constants or variables.
A variable has the value that was assigned to it last, or zero if none was. -/

namespace Reckoner.Variables

inductive Write where
  | declare (name : String)
  | assign (name : String) (value : Float)
  deriving DecidableEq

namespace Write

def name : Write → String
  | .declare name => name
  | .assign name _ => name

/-- The name and value of an assignment. -/
def assignment? : Write → Option (String × Float)
  | .declare _ => none
  | .assign name value => some (name, value)

end Write

variable {vars : Variables} {name : String}

def write (vars : Variables) : Write → Variables
  | .declare name => vars.declare name
  | .assign name value => vars.assign name value

def writeAll (vars : Variables) (writes : List Write) : Variables :=
  writes.foldl write vars

theorem writeAll_append (first second : List Write) :
    vars.writeAll (first ++ second) = (vars.writeAll first).writeAll second :=
  List.foldl_append

theorem writeAll_declare (names : List String) :
    vars.writeAll (names.map .declare) = vars.declareAll names :=
  List.foldl_map

/-- The names and values of the assignments among some writes. -/
def assignments (writes : List Write) : List (String × Float) :=
  writes.filterMap Write.assignment?

theorem assignments_append (first second : List Write) :
    assignments (first ++ second) = assignments first ++ assignments second :=
  List.filterMap_append

theorem assignments_declare (names : List String) :
    assignments (names.map .declare) = [] := by
  simp [assignments, Write.assignment?, Function.comp_def]

/-- The value that a name was assigned last. -/
def lastAssigned? (assigned : List (String × Float)) (name : String) : Option Float :=
  ((assigned.filter (·.1 = name)).getLast?).map (·.2)

theorem lastAssigned?_append_singleton (assigned : List (String × Float)) (target : String)
    (value : Float) (name : String) :
    lastAssigned? (assigned ++ [(target, value)]) name =
      if target = name then some value else lastAssigned? assigned name := by
  by_cases h : target = name <;> simp [lastAssigned?, h]

theorem lastAssigned?_eq_none {assigned : List (String × Float)}
    (h : ∀ pair ∈ assigned, pair.1 ≠ name) : lastAssigned? assigned name = none := by
  have hf : assigned.filter (·.1 = name) = [] := by simpa using h
  rw [lastAssigned?, hf]
  rfl

/-! ## What never changes -/

/-- The names in their order, each with whether it is a constant. -/
def signature (vars : Variables) : List (String × Bool) :=
  vars.entries.map fun entry => (entry.name, entry.constant)

theorem constant_given (target : String) (value : Float) (entry : Variable) :
    (given target value entry).constant = entry.constant := by
  unfold given
  split <;> rfl

theorem given_of_constant {entry : Variable} (hc : entry.constant = true) (target : String)
    (value : Float) : given target value entry = entry := by
  simp [given, hc]

theorem signature_prefix_append (vars : Variables) (name : String) (value : Float) :
    vars.signature <+: (vars.append name value).signature := by
  simp [signature, append]

/-- A write leaves all names in their places, and all constants constant. -/
theorem signature_prefix_write (vars : Variables) (call : Write) :
    vars.signature <+: (vars.write call).signature := by
  cases call with
  | declare name =>
      cases hv : vars.value? name with
      | none =>
          rw [write, declare_of_unbound hv]
          exact signature_prefix_append vars name 0
      | some old =>
          simp only [write, declare_of_bound hv, List.prefix_rfl]
  | assign name value =>
      cases hv : vars.value? name with
      | none =>
          rw [write, assign_of_unbound hv]
          exact signature_prefix_append vars name value
      | some old =>
          rw [write, assign_of_bound (by rw [hv]; rfl), signature, signature, List.map_map]
          simp only [Function.comp_def, name_given, constant_given]
          exact List.prefix_refl _

theorem signature_prefix_writeAll (vars : Variables) (writes : List Write) :
    vars.signature <+: (vars.writeAll writes).signature := by
  induction writes generalizing vars with
  | nil => exact List.prefix_refl _
  | cons call writes ih => exact (vars.signature_prefix_write call).trans (ih (vars.write call))

/-- A write binds no name but its own. -/
theorem mem_names_write {call : Write} (hm : name ∈ (vars.write call).names) :
    name ∈ vars.names ∨ call.name = name := by
  by_contra hnot
  obtain ⟨hold, hne⟩ := not_or.mp hnot
  have hnone := value?_eq_none_iff.mpr hold
  refine value?_eq_none_iff.mp ?_ hm
  cases call with
  | declare target =>
      have hother : target ≠ name := hne
      rw [write, value?_declare, hnone, if_neg hother, Option.or_none]
  | assign target value =>
      have hother : name ≠ target := Ne.symm hne
      rw [write, value?_assign_of_ne hother, hnone]

theorem mem_names_writeAll {writes : List Write} (hm : name ∈ (vars.writeAll writes).names) :
    name ∈ vars.names ∨ ∃ call ∈ writes, call.name = name := by
  induction writes generalizing vars with
  | nil => exact .inl hm
  | cons call writes ih =>
      rcases ih hm with hold | ⟨later, hl, he⟩
      · refine (mem_names_write hold).imp_right ?_
        intro he
        exact ⟨call, List.mem_cons_self, he⟩
      · exact .inr ⟨later, List.mem_cons_of_mem _ hl, he⟩

/-! ## What holds at any time -/

/-- In a table of distinct names the entry of a name is the one that is listed. -/
theorem get?_eq_some_iff (hn : vars.names.Nodup) {entry : Variable} :
    vars.get? name = some entry ↔ entry ∈ vars.entries ∧ entry.name = name := by
  constructor
  · intro hg
    exact ⟨List.mem_of_find?_eq_some hg, by simpa using List.find?_some hg⟩
  · rintro ⟨hm, rfl⟩
    obtain ⟨front, back, he⟩ := List.append_of_mem hm
    obtain ⟨entries⟩ := vars
    obtain rfl : entries = front ++ entry :: back := he
    exact get?_middle hn

/-- A table that has been written to. The names are distinct, so that a name finds
the entry that is listed for it. The constants come first and have their values. All
other entries are variables, with the values that were assigned to them last. -/
structure Kept (vars : Variables) (assigned : List (String × Float)) : Prop where
  nodup : vars.names.Nodup
  get?_eq_some_iff (name : String) (entry : Variable) :
    vars.get? name = some entry ↔ entry ∈ vars.entries ∧ entry.name = name
  get?_eq_none_iff (name : String) : vars.get? name = none ↔ name ∉ vars.names
  assigned_bound : ∀ pair ∈ assigned, pair.1 ∈ vars.names
  entries_eq : ∃ others, vars.entries = initial.entries ++ others ∧ ∀ entry ∈ others,
    entry.constant = false ∧ entry.value = (lastAssigned? assigned entry.name).getD 0

namespace Kept

variable {assigned : List (String × Float)}

theorem of_nodup (hn : vars.names.Nodup) (hb : ∀ pair ∈ assigned, pair.1 ∈ vars.names)
    (he : ∃ others, vars.entries = initial.entries ++ others ∧ ∀ entry ∈ others,
      entry.constant = false ∧ entry.value = (lastAssigned? assigned entry.name).getD 0) :
    Kept vars assigned :=
  ⟨hn, fun _ _ => Variables.get?_eq_some_iff hn,
    fun name => by rw [← value?_eq_none_iff, value?, Option.map_eq_none_iff], hb, he⟩

theorem initial : Kept Variables.initial [] :=
  .of_nodup (by decide) nofun ⟨[], rfl, nofun⟩

/-- A declared name has been assigned nothing before, and has the value zero. -/
theorem declare (h : Kept vars assigned) (name : String) : Kept (vars.declare name) assigned := by
  cases hv : vars.value? name with
  | some old => rwa [declare_of_bound hv]
  | none =>
      have hname : name ∉ vars.names := value?_eq_none_iff.mp hv
      have hnone : lastAssigned? assigned name = none :=
        lastAssigned?_eq_none fun pair hp he => hname (he ▸ h.assigned_bound pair hp)
      obtain ⟨others, he, hothers⟩ := h.entries_eq
      rw [declare_of_unbound hv]
      refine .of_nodup ?_ ?_ ⟨others ++ [⟨name, 0, false⟩], ?_, ?_⟩
      · rw [← declare_of_unbound hv]
        exact nodup_names_declare h.nodup name
      · intro pair hp
        rw [names_append]
        exact List.mem_append_left _ (h.assigned_bound pair hp)
      · rw [Variables.append, he, List.append_assoc]
      · intro entry hm
        rcases List.mem_append.mp hm with hm | hm
        · exact hothers entry hm
        · obtain rfl := List.mem_singleton.mp hm
          rw [hnone]
          exact ⟨rfl, rfl⟩

/-- An assignment to a bound name is the last one to it. -/
theorem assign_of_bound (h : Kept vars assigned) (hb : (vars.value? name).isSome) (value : Float) :
    Kept (vars.assign name value) (assigned ++ [(name, value)]) := by
  have hprefix := vars.names_prefix_assign name value
  obtain ⟨others, he, hothers⟩ := h.entries_eq
  have hconstants : Variables.initial.entries.map (given name value) =
      Variables.initial.entries := by
    simp [Variables.initial, given_of_constant]
  refine .of_nodup ((written_assign h.nodup name value).nodup_names h.nodup) ?_
    ⟨others.map (given name value), ?_, ?_⟩
  · intro pair hp
    apply hprefix.subset
    rcases List.mem_append.mp hp with hp | hp
    · exact h.assigned_bound pair hp
    · rw [List.mem_singleton.mp hp]
      exact isSome_value?_iff.mp hb
  · rw [Variables.assign_of_bound hb, he, List.map_append, hconstants]
  · intro entry hm
    obtain ⟨old, hold, rfl⟩ := List.mem_map.mp hm
    obtain ⟨hc, hv⟩ := hothers old hold
    rw [constant_given, name_given, lastAssigned?_append_singleton]
    refine ⟨hc, ?_⟩
    by_cases hname : name = old.name
    · rw [if_pos hname]
      simp [given, hname, hc]
    · rw [if_neg hname, given_of_ne value (Ne.symm hname), hv]

theorem write (h : Kept vars assigned) (call : Write) :
    Kept (vars.write call) (assigned ++ call.assignment?.toList) := by
  cases call with
  | declare name =>
      rw [Write.assignment?, Option.toList_none, List.append_nil]
      exact h.declare name
  | assign name value =>
      rw [Variables.write, ← assign_declare]
      refine (h.declare name).assign_of_bound ?_ value
      rw [value?_declare, if_pos rfl, Option.isSome_or]
      exact Bool.or_true _

theorem writeAll (h : Kept vars assigned) (writes : List Write) :
    Kept (vars.writeAll writes) (assigned ++ assignments writes) := by
  induction writes generalizing vars assigned with
  | nil =>
      rw [assignments, List.filterMap_nil, List.append_nil]
      exact h
  | cons call writes ih =>
      have hlist : assigned ++ assignments (call :: writes) =
          assigned ++ call.assignment?.toList ++ assignments writes := by
        cases hc : call.assignment? <;> simp [assignments, hc]
      rw [hlist]
      exact ih (h.write call)

end Kept
end Reckoner.Variables
