import Mathlib.Data.List.Induction
import Reckoner.History
import Reckoner.Proofs.InputLine

/-! # Recalling entered lines

Whatever is entered, cleared, recalled and typed, the history holds the lines that were
entered since it was last cleared, and its position is the place of one of them or the place
behind them. So a recall finds the line that it reads. From a line just entered, recalls of
older lines lead back to the first one and stay there; from there recalls of newer lines
lead forward again, and past the last one to an empty line. -/

namespace Reckoner.History

variable {history : History} {input : InputLine} {entries : List String} {count position : Nat}

/-- What may happen to a history and to the input line that its lines are recalled to. -/
inductive Action where
  | push (line : String)
  | clear
  | older
  | newer
  | edit (change : InputLine.Edit)
  deriving DecidableEq, Repr

def after (state : History × InputLine) : Action → History × InputLine
  | .push line => (state.1.push line, state.2)
  | .clear => (.empty, state.2)
  | .older => state.1.older state.2
  | .newer => state.1.newer state.2
  | .edit change => (state.1, state.2.edit change)

def afterAll (state : History × InputLine) (actions : List Action) : History × InputLine :=
  actions.foldl after state

/-- The history and the input line after some actions, when both are empty at first. -/
def run (actions : List Action) : History × InputLine := afterAll (.empty, .empty) actions

theorem afterAll_append (state : History × InputLine) (first second : List Action) :
    afterAll state (first ++ second) = afterAll (afterAll state first) second :=
  List.foldl_append

theorem afterAll_concat (state : History × InputLine) (actions : List Action) (action : Action) :
    afterAll state (actions ++ [action]) = after (afterAll state actions) action :=
  List.foldl_concat _ _ _ _

/-- The line that an action enters. -/
def Action.pushed? : Action → Option String
  | .push line => some line
  | _ => none

/-- The lines entered since the history was last cleared. -/
def entered (actions : List Action) : List String :=
  (actions.reverse.takeWhile (· ≠ .clear)).reverse.filterMap Action.pushed?

/-! ## Recalls that read their entry -/

/-- A recall of an older line, none when the line that it reads is not there. -/
def older? (history : History) (input : InputLine) : Option (History × InputLine) :=
  if history.position = 0 then some (history, input)
  else history.entries[history.position - 1]?.map fun line =>
    ({ history with position := history.position - 1 }, .ofText line)

/-- A recall of a newer line, in the same way. -/
def newer? (history : History) : Option (History × InputLine) :=
  if history.position + 1 < history.entries.length then
    history.entries[history.position + 1]?.map fun line =>
      ({ history with position := history.position + 1 }, .ofText line)
  else some ({ history with position := history.entries.length }, .empty)

theorem load_of_lt (h : position < history.entries.length) (input : InputLine) :
    history.load position input =
      ({ history with position := position }, .ofText history.entries[position]) := by
  rw [load, List.getElem?_eq_getElem h]

theorem older?_eq (h : history.position ≤ history.entries.length) (input : InputLine) :
    history.older? input = some (history.older input) := by
  unfold older? older
  split
  · rfl
  · have hlt : history.position - 1 < history.entries.length := by omega
    rw [load_of_lt hlt, List.getElem?_eq_getElem hlt, Option.map_some]

theorem newer?_eq (history : History) (input : InputLine) :
    history.newer? = some (history.newer input) := by
  unfold newer? newer
  split
  · rename_i hlt
    rw [load_of_lt hlt, List.getElem?_eq_getElem hlt, Option.map_some]
  · rfl

@[simp] theorem load_entries (history : History) (position : Nat) (input : InputLine) :
    (history.load position input).1.entries = history.entries := by
  unfold load
  dsimp only
  split <;> rfl

@[simp] theorem load_position (history : History) (position : Nat) (input : InputLine) :
    (history.load position input).1.position = position := by
  unfold load
  dsimp only
  split <;> rfl

/-- Recalls leave the entries as they are. -/
@[simp] theorem older_entries (history : History) (input : InputLine) :
    (history.older input).1.entries = history.entries := by
  unfold older
  split
  · rfl
  · exact load_entries _ _ _

@[simp] theorem newer_entries (history : History) (input : InputLine) :
    (history.newer input).1.entries = history.entries := by
  unfold newer
  split
  · exact load_entries _ _ _
  · rfl

/-! ## What holds after every run -/

theorem position_after_le {state : History × InputLine}
    (h : state.1.position ≤ state.1.entries.length) (action : Action) :
    (after state action).1.position ≤ (after state action).1.entries.length := by
  cases action with
  | push line => exact Nat.le_refl _
  | clear => exact Nat.le_refl _
  | older =>
      change (state.1.older state.2).1.position ≤ (state.1.older state.2).1.entries.length
      rw [older_entries, older]
      split
      · exact h
      · rw [load_position]
        exact Nat.le_trans (Nat.sub_le _ _) h
  | newer =>
      change (state.1.newer state.2).1.position ≤ (state.1.newer state.2).1.entries.length
      rw [newer_entries, newer]
      split
      · rename_i hlt
        rw [load_position]
        exact Nat.le_of_lt hlt
      · exact Nat.le_refl _
  | edit change => exact h

theorem position_run_le (actions : List Action) :
    (run actions).1.position ≤ (run actions).1.entries.length := by
  induction actions using List.reverseRecOn with
  | nil => exact Nat.le_refl 0
  | append_singleton actions action ih =>
      rw [run, afterAll_concat]
      exact position_after_le ih action

theorem entered_concat (actions : List Action) (action : Action) :
    entered (actions ++ [action]) =
      if action = .clear then [] else entered actions ++ action.pushed?.toList := by
  unfold entered
  rw [List.reverse_concat, List.takeWhile_cons]
  split
  · rename_i hclear
    have hkeeps : action ≠ .clear := by simpa using hclear
    have hpushed : [action].filterMap Action.pushed? = action.pushed?.toList := by
      rw [List.filterMap_cons]
      cases action.pushed? <;> rfl
    rw [if_neg hkeeps, List.reverse_cons, List.filterMap_append, hpushed]
  · rename_i hclear
    rw [if_pos (by simpa using hclear)]
    rfl

theorem entries_run (actions : List Action) : (run actions).1.entries = entered actions := by
  induction actions using List.reverseRecOn with
  | nil => rfl
  | append_singleton actions action ih =>
      rw [run, afterAll_concat, entered_concat, ← ih]
      cases action with
      | push line => rfl
      | clear => rfl
      | older => simp [after, Action.pushed?, run]
      | newer => simp [after, Action.pushed?, run]
      | edit change => simp [after, Action.pushed?, run]

/-! ## Walks -/

/-- The text stands in the line, with the cursor behind it. -/
def Shows (input : InputLine) (text : String) : Prop :=
  input.text = text ∧ input.cursor = input.size

theorem shows_ofText (text : String) : Shows (.ofText text) text :=
  ⟨String.ofList_toList, rfl⟩

theorem shows_empty : Shows .empty "" := ⟨rfl, rfl⟩

/-- A recall of the line before the one at a position. -/
theorem older_of_le (hpos : 0 < position) (h : position ≤ entries.length) (input : InputLine) :
    (⟨entries, position⟩ : History).older input =
      (⟨entries, position - 1⟩, .ofText entries[position - 1]) := by
  rw [older, if_neg (Nat.pos_iff_ne_zero.mp hpos)]
  exact load_of_lt _ input

theorem newer_of_lt (h : position + 1 < entries.length) (input : InputLine) :
    (⟨entries, position⟩ : History).newer input =
      (⟨entries, position + 1⟩, .ofText entries[position + 1]) := by
  rw [newer, if_pos h]
  exact load_of_lt h input

theorem newer_of_ge (h : entries.length ≤ position + 1) (input : InputLine) :
    (⟨entries, position⟩ : History).newer input = (⟨entries, entries.length⟩, .empty) := by
  rw [newer, if_neg (Nat.not_lt.mpr h)]

/-- Recalls of older lines, from behind the last line, lead back line by line. -/
theorem afterAll_older (hcount : count < entries.length) (input : InputLine) :
    afterAll (⟨entries, entries.length⟩, input) (List.replicate (count + 1) .older) =
      (⟨entries, entries.length - (count + 1)⟩, .ofText entries[entries.length - (count + 1)]) := by
  induction count with
  | zero => exact older_of_le hcount (Nat.le_refl _) input
  | succ count ih =>
      rw [List.replicate_succ', afterAll_concat, ih (Nat.lt_of_succ_lt hcount)]
      have hpos : 0 < entries.length - (count + 1) := by omega
      exact older_of_le hpos (Nat.sub_le _ _) _

/-- From the first line they change nothing. -/
theorem afterAll_older_first (entries : List String) (input : InputLine) (count : Nat) :
    afterAll (⟨entries, 0⟩, input) (List.replicate count .older) = (⟨entries, 0⟩, input) := by
  induction count with
  | zero => rfl
  | succ count ih =>
      rw [List.replicate_succ', afterAll_concat, ih]
      rfl

theorem exists_afterAll_older (hcount : count ≤ entries.length) (input : InputLine) :
    ∃ shown, afterAll (⟨entries, entries.length⟩, input) (List.replicate count .older) =
      (⟨entries, entries.length - count⟩, shown) := by
  cases count with
  | zero => exact ⟨input, rfl⟩
  | succ count => exact ⟨_, afterAll_older hcount input⟩

/-- More of them than there are lines lead no further. -/
theorem afterAll_older_of_le (hcount : entries.length ≤ count) (input : InputLine) :
    afterAll (⟨entries, entries.length⟩, input) (List.replicate count .older) =
      afterAll (⟨entries, entries.length⟩, input) (List.replicate entries.length .older) := by
  obtain ⟨extra, rfl⟩ := Nat.exists_eq_add_of_le hcount
  obtain ⟨shown, hfirst⟩ := exists_afterAll_older (Nat.le_refl entries.length) input
  rw [Nat.sub_self] at hfirst
  rw [List.replicate_add, afterAll_append, hfirst]
  exact afterAll_older_first entries shown extra

/-- Recalls of newer lines lead forward line by line. -/
theorem afterAll_newer_of_lt (h : position + (count + 1) < entries.length) (input : InputLine) :
    afterAll (⟨entries, position⟩, input) (List.replicate (count + 1) .newer) =
      (⟨entries, position + (count + 1)⟩, .ofText entries[position + (count + 1)]) := by
  induction count with
  | zero => exact newer_of_lt h input
  | succ count ih =>
      rw [List.replicate_succ', afterAll_concat, ih (by omega)]
      exact newer_of_lt h _

/-- Past the last line they lead to an empty line, and stay there. -/
theorem afterAll_newer_of_ge (h : entries.length ≤ position + (count + 1)) (input : InputLine) :
    afterAll (⟨entries, position⟩, input) (List.replicate (count + 1) .newer) =
      (⟨entries, entries.length⟩, .empty) := by
  induction count with
  | zero => exact newer_of_ge h input
  | succ count ih =>
      rw [List.replicate_succ', afterAll_concat]
      rcases Nat.lt_or_ge (position + (count + 1)) entries.length with hlt | hge
      · rw [afterAll_newer_of_lt hlt]
        exact newer_of_ge h _
      · rw [ih hge]
        exact newer_of_ge (Nat.le_succ _) _

/-- Recalls from a line that has just been entered: some of older lines, then some of newer
ones. -/
def walk (actions : List Action) (line : String) (older newer : Nat) : History × InputLine :=
  run (actions ++ .push line :: (List.replicate older .older ++ List.replicate newer .newer))

theorem walk_eq (actions : List Action) (line : String) (older newer : Nat) :
    walk actions line older newer =
      afterAll (afterAll (⟨entered actions ++ [line], (entered actions ++ [line]).length⟩,
        (run actions).2) (List.replicate older .older)) (List.replicate newer .newer) := by
  have hpush : after (run actions) (.push line) =
      (⟨entered actions ++ [line], (entered actions ++ [line]).length⟩, (run actions).2) := by
    rw [← entries_run]
    rfl
  rw [walk, run, afterAll_append, ← hpush]
  exact afterAll_append (after (run actions) (.push line)) _ _

/-- Recalls have come to the entry at a place, and the line shows it. -/
structure StandsAt (entries : List String) (place : Nat) (state : History × InputLine) : Prop where
  history : state.1 = ⟨entries, place⟩
  shows : ∃ text, entries[place]? = some text ∧ Shows state.2 text

theorem standsAt (h : position < entries.length) :
    StandsAt entries position (⟨entries, position⟩, .ofText entries[position]) :=
  ⟨rfl, _, List.getElem?_eq_getElem h, shows_ofText _⟩

/-- Whatever has happened, the position is not behind the entries, these are the lines entered
since the history was last cleared, and both recalls find the line that they read. When a line
is entered then, recalls of older lines lead back from it to the first one and no further, and
recalls of newer lines lead forward from there, past the last one to an empty line. -/
theorem recalls_walk (actions : List Action) :
    let state := run actions
    state.1.position ≤ state.1.entries.length ∧ state.1.entries = entered actions ∧
      state.1.older? state.2 = some (state.1.older state.2) ∧
      state.1.newer? = some (state.1.newer state.2) ∧
      ∀ line,
        let entries := entered actions ++ [line]
        let walk := walk actions line
        (∀ back < entries.length,
          StandsAt entries (entries.length - (back + 1)) (walk (back + 1) 0)) ∧
        (∀ back forth, entries.length ≤ back → walk back forth = walk entries.length forth) ∧
        (∀ back ≤ entries.length, ∀ forth, entries.length - back + (forth + 1) < entries.length →
          StandsAt entries (entries.length - back + (forth + 1)) (walk back (forth + 1))) ∧
        (∀ back ≤ entries.length, ∀ forth, entries.length ≤ entries.length - back + (forth + 1) →
          (walk back (forth + 1)).1 = ⟨entries, entries.length⟩ ∧
            Shows (walk back (forth + 1)).2 "") := by
  intro state
  refine ⟨position_run_le actions, entries_run actions, older?_eq (position_run_le actions) _,
    newer?_eq _ _, fun line => ?_⟩
  intro entries walk
  refine ⟨fun back hback => ?older, fun back forth hback => ?first,
    fun back hback forth hlt => ?newer, fun back hback forth hge => ?past⟩
  case older =>
    have hwalk : walk (back + 1) 0 = _ := walk_eq actions line (back + 1) 0
    rw [afterAll_older hback] at hwalk
    rw [hwalk]
    exact standsAt (by omega)
  case first =>
    have hwalk : walk back forth = _ := walk_eq actions line back forth
    rw [afterAll_older_of_le hback] at hwalk
    exact hwalk.trans (walk_eq actions line entries.length forth).symm
  case newer =>
    obtain ⟨shown, hshown⟩ := exists_afterAll_older hback (run actions).2
    have hwalk : walk back (forth + 1) = _ := walk_eq actions line back (forth + 1)
    rw [hshown, afterAll_newer_of_lt hlt] at hwalk
    rw [hwalk]
    exact standsAt hlt
  case past =>
    obtain ⟨shown, hshown⟩ := exists_afterAll_older hback (run actions).2
    have hwalk : walk back (forth + 1) = _ := walk_eq actions line back (forth + 1)
    rw [hshown, afterAll_newer_of_ge hge] at hwalk
    rw [hwalk]
    exact ⟨rfl, shows_empty⟩

/-- Two lines entered after a clearing, and recalls of both and back again. -/
theorem recalls_walk_two_lines :
    let actions := [.push "0", .older, .clear, .push "1", .edit (.insert '+')]
    entered actions ++ ["2"] = ["1", "2"] ∧
      StandsAt ["1", "2"] 0 (walk actions "2" 2 0) ∧
      walk actions "2" 3 0 = walk actions "2" 2 0 ∧
      StandsAt ["1", "2"] 1 (walk actions "2" 2 1) ∧
      (walk actions "2" 2 2).1 = ⟨["1", "2"], 2⟩ ∧ Shows (walk actions "2" 2 2).2 "" := by
  intro actions
  obtain ⟨-, -, -, -, hwalks⟩ := recalls_walk actions
  obtain ⟨holder, hfirst, hnewer, hpast⟩ := hwalks "2"
  exact ⟨by decide, holder 1 (by decide), hfirst 3 0 (by decide),
    hnewer 2 (by decide) 0 (by decide), hpast 2 (by decide) 1 (by decide)⟩

end Reckoner.History
