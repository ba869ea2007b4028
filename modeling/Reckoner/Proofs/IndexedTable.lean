import Mathlib.Data.List.Nodup
import Reckoner.Proofs.Writes

/-! # Tables with an index

A table may keep its entries in an array and the place of every name in a hash map.
The two hold the same names twice; a write that keeps them in step leaves a table
that answers like the plain one. -/

namespace Reckoner

structure IndexedVariables where
  entries : Array Variable
  /-- The place of the entry of a name. -/
  index : Std.HashMap String Nat

namespace IndexedVariables

/-- The entry at the place of a name; none when nothing stands there. -/
def get? (table : IndexedVariables) (name : String) : Option Variable :=
  table.index[name]?.bind fun place => table.entries[place]?

/-- Adds an entry, and its place to the index. -/
def insert (table : IndexedVariables) (name : String) (value : Float) (constant : Bool) :
    IndexedVariables :=
  ⟨table.entries.push ⟨name, value, constant⟩, table.index.insert name table.entries.size⟩

def initial : IndexedVariables :=
  (insert ⟨#[], ∅⟩ "pi" Variables.pi true).insert "e" Variables.e true

def declare (table : IndexedVariables) (name : String) : IndexedVariables :=
  if table.index.contains name then table else table.insert name 0 false

def assign (table : IndexedVariables) (name : String) (value : Float) : IndexedVariables :=
  match table.index[name]? with
  | some place =>
      { table with
        entries := table.entries.modify place fun entry =>
          if entry.constant then entry else { entry with value } }
  | none => table.insert name value false

def write (table : IndexedVariables) : Variables.Write → IndexedVariables
  | .declare name => table.declare name
  | .assign name value => table.assign name value

def writeAll (table : IndexedVariables) (writes : List Variables.Write) : IndexedVariables :=
  writes.foldl write table

/-- The table has the entries of a plain one, and its index leads to a place
exactly from the name that stands there. -/
structure Represents (table : IndexedVariables) (vars : Variables) : Prop where
  entries_eq : table.entries.toList = vars.entries
  index_iff (name : String) (place : Nat) :
    table.index[name]? = some place ↔ vars.names[place]? = some name

namespace Represents

variable {table : IndexedVariables} {vars : Variables} {name : String} {place : Nat}

theorem empty : Represents ⟨#[], ∅⟩ ⟨[]⟩ where
  entries_eq := rfl
  index_iff name place := by simp [Variables.names]

/-- A name is in the index when it is bound. -/
theorem index_eq_none_iff (h : table.Represents vars) :
    table.index[name]? = none ↔ name ∉ vars.names := by
  rw [List.mem_iff_getElem?, not_exists, Option.eq_none_iff_forall_ne_some]
  exact forall_congr' fun place => not_congr (h.index_iff name place)

theorem exists_entry (h : table.Represents vars) (hi : table.index[name]? = some place) :
    ∃ entry, vars.entries[place]? = some entry ∧ entry.name = name := by
  have hn := (h.index_iff name place).mp hi
  rw [Variables.names, List.getElem?_map] at hn
  exact Option.map_eq_some_iff.mp hn

/-- The place of a name leads to the entry that the plain table finds. -/
theorem get?_eq (h : table.Represents vars) (name : String) : table.get? name = vars.get? name := by
  cases hi : table.index[name]? with
  | none =>
      have hv := Variables.value?_eq_none_iff.mpr (h.index_eq_none_iff.mp hi)
      rw [Variables.value?, Option.map_eq_none_iff] at hv
      rw [get?, hi, hv, Option.bind_none]
  | some place =>
      obtain ⟨entry, hp, hname⟩ := h.exists_entry hi
      have hget : table.get? name = some entry := by
        rw [get?, hi, Option.bind_some, ← Array.getElem?_toList, h.entries_eq, hp]
      have hm : name ∈ vars.names := List.mem_of_getElem? ((h.index_iff name place).mp hi)
      rw [← Variables.isSome_value?_iff, Variables.value?, Option.isSome_map] at hm
      obtain ⟨found, hg⟩ := Option.isSome_iff_exists.mp hm
      -- The entry that is found first has the same name, so it stands at the same place.
      obtain ⟨place', hp'⟩ := List.mem_iff_getElem?.mp (List.mem_of_find?_eq_some hg)
      have hname' : found.name = name := by simpa using List.find?_some hg
      have hi' : table.index[name]? = some place' := by
        rw [h.index_iff, Variables.names, List.getElem?_map, hp', Option.map_some, hname']
      obtain rfl : place = place' := Option.some.inj (hi.symm.trans hi')
      rw [hget, hg, ← hp, hp']

/-- One more name stands behind all others. -/
theorem getElem?_append_singleton_iff {names : List String} {other : String} :
    (names ++ [name])[place]? = some other ↔
      names[place]? = some other ∨ place = names.length ∧ name = other := by
  rcases Nat.lt_or_ge place names.length with hlt | hge
  · rw [List.getElem?_append_left hlt]
    exact ⟨.inl, fun h => h.resolve_right fun ⟨he, _⟩ => absurd he (Nat.ne_of_lt hlt)⟩
  · rw [List.getElem?_append_right hge, List.getElem?_eq_none hge]
    by_cases he : place = names.length
    · simp [he]
    · have hpast : place - names.length ≠ 0 := by omega
      simp [hpast, he]

theorem insert (h : table.Represents vars) (hu : name ∉ vars.names) (value : Float)
    (constant : Bool) :
    (table.insert name value constant).Represents
      ⟨vars.entries ++ [⟨name, value, constant⟩]⟩ where
  entries_eq := by rw [IndexedVariables.insert, Array.toList_push, h.entries_eq]
  index_iff other place := by
    have hsize : table.entries.size = vars.names.length := by
      rw [← Array.length_toList, h.entries_eq, Variables.names, List.length_map]
    have hnames : (Variables.mk (vars.entries ++ [⟨name, value, constant⟩])).names =
        vars.names ++ [name] := by
      simp [Variables.names]
    rw [IndexedVariables.insert, Std.HashMap.getElem?_insert, hsize, hnames,
      getElem?_append_singleton_iff]
    by_cases he : name = other
    · subst he
      have hne : vars.names[place]? ≠ some name := fun hp => hu (List.mem_of_getElem? hp)
      simp [hne, eq_comm]
    · simp [he, h.index_iff]

theorem declare (h : table.Represents vars) (name : String) :
    (table.declare name).Represents (vars.declare name) := by
  unfold IndexedVariables.declare
  split
  · rename_i hc
    rw [Std.HashMap.contains_eq_isSome_getElem?, Option.isSome_iff_ne_none, Ne,
      h.index_eq_none_iff, not_not, ← Variables.isSome_value?_iff] at hc
    obtain ⟨value, hv⟩ := Option.isSome_iff_exists.mp hc
    rwa [Variables.declare_of_bound hv]
  · rename_i hc
    rw [Std.HashMap.contains_eq_isSome_getElem?, Option.not_isSome_iff_eq_none,
      h.index_eq_none_iff] at hc
    rw [Variables.declare_of_unbound (Variables.value?_eq_none_iff.mpr hc)]
    exact h.insert hc 0 false

/-- An assignment changes the one entry at the place of its target. -/
theorem assign (h : table.Represents vars) (name : String) (value : Float) :
    (table.assign name value).Represents (vars.assign name value) := by
  unfold IndexedVariables.assign
  split
  · rename_i place hi
    have hm : name ∈ vars.names := List.mem_of_getElem? ((h.index_iff name place).mp hi)
    rw [Variables.assign_of_bound (Variables.isSome_value?_iff.mpr hm)]
    constructor
    · rw [Array.toList_modify, h.entries_eq]
      apply List.ext_getElem?
      intro other
      rw [List.getElem?_modify, List.getElem?_map]
      cases he : vars.entries[other]? with
      | none => rfl
      | some entry =>
          have hplace : place = other ↔ entry.name = name := by
            rw [← Option.some_inj, ← hi, h.index_iff, Variables.names, List.getElem?_map, he]
            exact Option.some_inj
          refine congrArg some ?_
          simp only [hplace, Variables.given]
          by_cases hname : entry.name = name <;> cases entry.constant <;> simp [hname]
    · intro other place'
      rw [h.index_iff]
      simp [Variables.names, Function.comp_def, Variables.name_given]
  · rename_i hi
    have hu := h.index_eq_none_iff.mp hi
    rw [Variables.assign_of_unbound (Variables.value?_eq_none_iff.mpr hu)]
    exact h.insert hu value false

theorem initial : IndexedVariables.initial.Represents .initial := by
  refine (empty.insert ?_ Variables.pi true).insert ?_ Variables.e true
  · decide
  · decide

theorem write (h : table.Represents vars) (call : Variables.Write) :
    (table.write call).Represents (vars.write call) := by
  cases call with
  | declare name => exact h.declare name
  | assign name value => exact h.assign name value

theorem writeAll (h : table.Represents vars) (writes : List Variables.Write) :
    (table.writeAll writes).Represents (vars.writeAll writes) := by
  induction writes generalizing table vars with
  | nil => exact h
  | cons call writes ih => exact ih (h.write call)

end Represents
end IndexedVariables
end Reckoner
