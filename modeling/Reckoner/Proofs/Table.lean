import Reckoner.Proofs.Variables
import Mathlib.Data.List.Nodup

/-! # The entries of the table

Declaring some names adds those that are not bound to the end of the table,
each where it first occurs. Giving a value to a name changes one entry at most.
Both keep the entries in their places and the names distinct. -/

namespace Reckoner.Variables

variable {vars : Variables} {name : String}

theorem value?_eq_none_iff : vars.value? name = none ↔ name ∉ vars.names := by
  simp [value?, get?, names]

/-- A name has a value when an entry has the name. -/
theorem isSome_value?_iff : (vars.value? name).isSome ↔ name ∈ vars.names := by
  rw [Option.isSome_iff_ne_none, Ne, value?_eq_none_iff, not_not]

@[simp] theorem names_append (value : Float) :
    (vars.append name value).names = vars.names ++ [name] := by
  simp [names, append]

/-- The names among some that are not bound, each where it first occurs. -/
def fresh (vars : Variables) (names : List String) : List String :=
  (names.filter (· ∉ vars.names)).eraseDups

theorem fresh_cons_of_mem (hb : name ∈ vars.names) (names : List String) :
    vars.fresh (name :: names) = vars.fresh names := by
  simp [fresh, hb]

/-- An unbound name is fresh where it first occurs, and not behind that. -/
theorem fresh_cons_of_not_mem (hb : name ∉ vars.names) (value : Float) (names : List String) :
    vars.fresh (name :: names) = name :: (vars.append name value).fresh names := by
  have hf : (names.filter (· ∉ vars.names)).filter (fun other => !other == name) =
      names.filter (· ∉ (vars.append name value).names) := by
    rw [List.filter_filter]
    apply List.filter_congr
    intro other _
    by_cases ho : other = name <;> simp [ho]
  rw [fresh, List.filter_cons_of_pos (by simpa using hb), List.eraseDups_cons, hf, fresh]

/-- The table with further names at its end, all bound to zero. -/
def extend (vars : Variables) (names : List String) : Variables :=
  ⟨vars.entries ++ names.map (⟨·, 0, false⟩)⟩

@[simp] theorem extend_nil (vars : Variables) : vars.extend [] = vars := by
  simp [extend]

@[simp] theorem names_extend (names : List String) :
    (vars.extend names).names = vars.names ++ names := by
  simp [Variables.names, extend, Function.comp_def]

theorem extend_cons (names : List String) :
    vars.extend (name :: names) = (vars.append name 0).extend names := by
  simp [extend, append]

/-- Declaring names adds the fresh ones. -/
theorem declareAll_eq_extend (vars : Variables) (names : List String) :
    vars.declareAll names = vars.extend (vars.fresh names) := by
  induction names generalizing vars with
  | nil => exact (extend_nil vars).symm
  | cons name names ih =>
      by_cases hb : name ∈ vars.names
      · obtain ⟨value, hv⟩ := Option.isSome_iff_exists.mp (isSome_value?_iff.mpr hb)
        rw [declareAll_cons, declare_of_bound hv, ih, fresh_cons_of_mem hb]
      · rw [declareAll_cons, declare_of_unbound (value?_eq_none_iff.mpr hb), ih,
          fresh_cons_of_not_mem hb 0, extend_cons]

theorem nodup_names_declare (hn : vars.names.Nodup) (name : String) :
    (vars.declare name).names.Nodup := by
  by_cases hb : name ∈ vars.names
  · obtain ⟨value, hv⟩ := Option.isSome_iff_exists.mp (isSome_value?_iff.mpr hb)
    rwa [declare_of_bound hv]
  · rw [declare_of_unbound (value?_eq_none_iff.mpr hb), names_append]
    exact List.nodup_append_comm.mp (List.nodup_cons.mpr ⟨hb, hn⟩)

theorem nodup_names_declareAll (hn : vars.names.Nodup) (names : List String) :
    (vars.declareAll names).names.Nodup := by
  induction names generalizing vars with
  | nil => exact hn
  | cons name names ih => exact ih (nodup_names_declare hn name)

/-- An assignment leaves all names in their places. -/
theorem names_prefix_assign (vars : Variables) (name : String) (value : Float) :
    vars.names <+: (vars.assign name value).names := by
  have hm : ∀ entry : Variable, (if entry.name = name && !entry.constant then
      { entry with value } else entry).name = entry.name := by
    intro entry
    split <;> rfl
  unfold assign
  split
  · rw [names, names, List.map_map]
    simp only [Function.comp_def, hm]
    exact List.prefix_refl _
  · simp

/-- What giving a value to a name may do: it overwrites the one entry of the
name, leaves that of a constant alone, or binds the name at the end. -/
inductive Written (name : String) (value : Float) : Variables → Variables → Prop
  | overwritten {front back : List Variable} {old : Float} :
      Written name value ⟨front ++ ⟨name, old, false⟩ :: back⟩
        ⟨front ++ ⟨name, value, false⟩ :: back⟩
  | constant {vars : Variables} {old : Float} (hm : ⟨name, old, true⟩ ∈ vars.entries) :
      Written name value vars vars
  | bound {vars : Variables} (hb : name ∉ vars.names) :
      Written name value vars (vars.append name value)

/-- No other entry has the name of one in a table of distinct names. -/
theorem ne_name_of_nodup {front back : List Variable} {entry : Variable}
    (hn : (Variables.mk (front ++ entry :: back)).names.Nodup) :
    ∀ other ∈ front ++ back, other.name ≠ entry.name := by
  rw [names, List.map_append, List.map_cons, List.nodup_middle, List.nodup_cons,
    ← List.map_append] at hn
  intro other hm he
  exact hn.1 (he ▸ List.mem_map_of_mem hm)

theorem get?_middle {front back : List Variable} {entry : Variable}
    (hn : (Variables.mk (front ++ entry :: back)).names.Nodup) :
    (Variables.mk (front ++ entry :: back)).get? entry.name = some entry := by
  have hf : front.find? (·.name = entry.name) = none := by
    simpa using fun other hm => ne_name_of_nodup hn other (List.mem_append_left _ hm)
  simp [get?, List.find?_append, hf]

/-- In a table of distinct names an assignment changes one entry at most. -/
theorem written_assign (hn : vars.names.Nodup) (name : String) (value : Float) :
    Written name value vars (vars.assign name value) := by
  by_cases hb : name ∈ vars.names
  · obtain ⟨entry, hm, rfl⟩ := List.mem_map.mp hb
    obtain ⟨front, back, he⟩ := List.append_of_mem hm
    obtain ⟨entries⟩ := vars
    obtain rfl : entries = front ++ entry :: back := he
    have hother := ne_name_of_nodup hn
    have hkeep : ∀ others : List Variable, others ⊆ front ++ back →
        others.map (fun other => if other.name = entry.name && !other.constant then
          { other with value } else other) = others := by
      intro others hs
      refine (List.map_congr_left fun other ho => ?_).trans (List.map_id _)
      simp [hother other (hs ho)]
    obtain ⟨name, old, constant⟩ := entry
    simp only [assign, get?_middle hn, List.map_append, List.map_cons,
      hkeep front (List.subset_append_left _ _), hkeep back (List.subset_append_right _ _)]
    cases constant with
    | false => exact .overwritten
    | true => exact .constant hm
  · have hg : vars.get? name = none := by
      simpa [value?] using value?_eq_none_iff.mpr hb
    simp only [assign, hg]
    exact .bound hb

theorem Written.nodup_names {value : Float} {before after : Variables}
    (h : Written name value before after) (hn : before.names.Nodup) : after.names.Nodup := by
  cases h with
  | overwritten => simpa [names] using hn
  | constant => exact hn
  | bound hb =>
      rw [names_append]
      exact List.nodup_append_comm.mp (List.nodup_cons.mpr ⟨hb, hn⟩)

end Reckoner.Variables
