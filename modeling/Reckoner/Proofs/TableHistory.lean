import Reckoner.Proofs.Evaluation.Bindings
import Reckoner.Proofs.IndexedTable
import Reckoner.Proofs.Sessions
import Reckoner.Proofs.Token.Lexeme

/-! # The table over a session

All that a line does to the table is to declare names of its tokens and to assign
its value to its target. So after any lines the table is one that has been written
to, and a variable has the value of the last line that was assigned to it. -/

namespace Reckoner

open Unicode

variable {policy : NamePolicy} {tokens : List Token} {vars : Variables} {trace : Trace}

/-- The name that a result was assigned to, and its value. -/
def assigned? {ε : Type} : Except ε Evaluation → Option (String × Float)
  | .ok ⟨value, some name⟩ => some (name, value)
  | _ => none

theorem assigned?_eq_some_iff {ε : Type} {result : Except ε Evaluation} {name : String}
    {value : Float} :
    assigned? result = some (name, value) ↔ result = .ok ⟨value, some name⟩ := by
  rcases result with fault | ⟨value', none | target⟩
  · simp [assigned?]
  · simp [assigned?]
  · simp [assigned?, and_comm]

theorem assigned?_mapError {ε ε' : Type} (f : ε → ε') (result : Except ε Evaluation) :
    assigned? (result.mapError f) = assigned? result := by
  rcases result with fault | ⟨value, none | name⟩ <;> rfl

/-- The text is a letter and letters or digits behind it. -/
def IsName (name : String) : Prop :=
  ∃ first rest, name.toList = first :: rest ∧ isAlphabetic first = true ∧
    ∀ c ∈ rest, isAlphanumeric c = true

open Variables (Write assignments)

namespace LineWork

variable {work : LineWork}

/-- What a line does to the table. -/
def writes (work : LineWork) : List Write :=
  (names work.read).map .declare ++
    (assigned? work.result).toList.map fun (name, value) => .assign name value

theorem vars_on (work : LineWork) (vars : Variables) (trace : Trace) :
    (work.on vars trace).vars = vars.writeAll work.writes := by
  obtain ⟨result, read, steps⟩ := work
  rw [writes, Variables.writeAll_append, Variables.writeAll_declare]
  rcases result with fault | ⟨value, none | name⟩ <;> rfl

theorem assignments_writes (work : LineWork) :
    assignments work.writes = (assigned? work.result).toList := by
  rw [writes, Variables.assignments_append, Variables.assignments_declare, List.nil_append]
  cases assigned? work.result <;> rfl

theorem touches_of_mem_writes {call : Write} (hm : call ∈ work.writes) : work.Touches call.name := by
  rcases List.mem_append.mp hm with hm | hm
  · obtain ⟨name, hn, rfl⟩ := List.mem_map.mp hm
    exact .inl hn
  · obtain ⟨⟨name, value⟩, hp, rfl⟩ := List.mem_map.mp hm
    exact .inr ⟨value, assigned?_eq_some_iff.mp (Option.mem_toList.mp hp)⟩

end LineWork

/-- An evaluation declares some names of its tokens, and assigns its value to its target. -/
theorem exists_writes_of_evaluate (policy : NamePolicy) (tokens : List Token) (vars : Variables)
    (trace : Trace) :
    ∃ writes : List Write, (evaluate policy tokens vars trace).vars = vars.writeAll writes ∧
      assignments writes = (assigned? (evaluate policy tokens vars trace).result).toList ∧
      ∀ call ∈ writes, .identifier call.name ∈ tokens := by
  obtain ⟨work, hsub, _, htarget, hwork⟩ := exists_lineWork policy tokens vars
  rw [hwork vars trace (.refl _ _ _)]
  refine ⟨work.writes, work.vars_on vars trace, work.assignments_writes, ?_⟩
  intro call hm
  exact (LineWork.touches_of_mem_writes hm).mem hsub htarget

/-- The names of a line are written as names. -/
theorem isName_of_tokenize {line : String} (ht : tokenize line = .ok tokens) {name : String}
    (hm : .identifier name ∈ tokens) : IsName name := by
  obtain ⟨lexeme, hl⟩ := Token.exists_lexeme_of_scan ht _ hm
  cases hl with
  | name hf hr => exact ⟨_, _, String.toList_ofList, hf, hr⟩
  | single hc => cases Token.isOperand_of_ofPunctuation? hc

namespace Calculator

variable {calculator : Calculator}

/-- A line writes to the table what its tokens ask for, if it has tokens at all. -/
theorem exists_writes_of_answerTracing (calculator : Calculator) (line : String) (trace : Trace) :
    ∃ writes, (calculator.answerTracing line trace).calculator =
        { calculator with vars := calculator.vars.writeAll writes } ∧
      assignments writes = (assigned? (calculator.answerTracing line trace).result).toList ∧
      ∀ call ∈ writes, IsName call.name := by
  rw [answerTracing]
  cases ht : tokenize line with
  | error cause => exact ⟨[], rfl, rfl, nofun⟩
  | ok tokens =>
      obtain ⟨writes, hv, ha, hn⟩ :=
        exists_writes_of_evaluate calculator.policy tokens calculator.vars trace
      refine ⟨writes, ?_, ?_, fun call hm => isName_of_tokenize ht (hn call hm)⟩
      · simp only [hv]
      · rw [ha, assigned?_mapError]

/-- All that lines have done to the table, one after another. -/
theorem exists_writes_of_feed (calculator : Calculator) (lines : List String) :
    ∃ writes, calculator.feed lines =
        { calculator with vars := calculator.vars.writeAll writes } ∧
      assignments writes = (calculator.results lines).filterMap assigned? ∧
      ∀ call ∈ writes, IsName call.name := by
  induction lines generalizing calculator with
  | nil => exact ⟨[], rfl, rfl, nofun⟩
  | cons line rest ih =>
      obtain ⟨first, hc, ha, hn⟩ := calculator.exists_writes_of_answerTracing line (.start false)
      obtain ⟨later, hc', ha', hn'⟩ := ih (calculator.answer line).calculator
      refine ⟨first ++ later, ?_, ?_, ?_⟩
      · rw [feed_cons, hc', answer, hc, Variables.writeAll_append]
      · rw [Variables.assignments_append, ha, ha', results_cons, ← answer]
        cases hr : assigned? (calculator.answer line).result <;> simp [hr]
      · intro call hm
        exact (List.mem_append.mp hm).elim (hn call) (hn' call)

end Calculator

/-- The table is a map in the order of insertion with two constants. After any
writes to a new table the names are distinct, a name finds the entry listed for it,
the constants come first and have their values, and every other entry is a variable
with the value that was assigned to it last, or zero; a table with an index finds the
same. A write leaves the names in their places, and constants constant. After any
lines of a session the same holds, with the values that the lines have assigned, and
all names but the constants are written as names. -/
theorem variables_kept :
    (∀ writes,
      let vars := Variables.initial.writeAll writes
      let table := IndexedVariables.initial.writeAll writes
      vars.Kept (assignments writes) ∧ table.Represents vars ∧
        (∀ name, table.get? name = vars.get? name) ∧
        ∀ call, vars.signature <+: (vars.write call).signature) ∧
    ∀ policy lines,
      let start := Calculator.start policy
      let calculator := start.feed lines
      let assigned := (start.results lines).filterMap assigned?
      calculator.vars.Kept assigned ∧
        (∃ writes, calculator.vars = Variables.initial.writeAll writes ∧
          assignments writes = assigned) ∧
        (∀ line trace, calculator.vars.signature <+:
          (calculator.answerTracing line trace).calculator.vars.signature) ∧
        ∀ name ∈ calculator.vars.names, name = "pi" ∨ name = "e" ∨ IsName name := by
  constructor
  · intro writes vars table
    have hr : table.Represents vars := IndexedVariables.Represents.initial.writeAll writes
    have hk : vars.Kept ([] ++ assignments writes) := Variables.Kept.initial.writeAll writes
    exact ⟨hk, hr, hr.get?_eq, vars.signature_prefix_write⟩
  · intro policy lines start calculator assigned
    obtain ⟨writes, hc, ha, hn⟩ := start.exists_writes_of_feed lines
    have hv : calculator.vars = Variables.initial.writeAll writes := congrArg Calculator.vars hc
    have hk : Variables.Kept (Variables.initial.writeAll writes) ([] ++ assignments writes) :=
      Variables.Kept.initial.writeAll writes
    rw [List.nil_append, ha, ← hv] at hk
    refine ⟨hk, ⟨writes, hv, ha⟩, ?_, ?_⟩
    · intro line trace
      obtain ⟨more, hc', _⟩ := calculator.exists_writes_of_answerTracing line trace
      rw [hc']
      exact calculator.vars.signature_prefix_writeAll more
    · intro name hm
      rw [hv] at hm
      rcases Variables.mem_names_writeAll hm with hold | ⟨call, hcall, rfl⟩
      · have hconstant : name = "pi" ∨ name = "e" := by
          simpa [Variables.names, Variables.initial] using hold
        exact hconstant.imp_right .inl
      · exact .inr (.inr (hn call hcall))

/-- A session in which `pi = 3` is ignored, a line that fails has declared `z` before
it does, and one that is not read has declared nothing. -/
theorem variables_kept_session :
    let start := Calculator.start .declare
    let lines := ["x = 2", "é + x", "pi = 3", "x = z + * 3", "w $ 2", "x = é - 1"]
    let vars := (start.feed lines).vars
    vars.names = ["pi", "e", "x", "é", "z"] ∧
      (start.results lines).filterMap assigned? = [("x", 2), ("pi", 3), ("x", -1)] ∧
      "é" ∈ vars.names ∧ IsName "é" ∧
      (vars.get? "x" = some ⟨"x", -1, false⟩ ↔
        ⟨"x", -1, false⟩ ∈ vars.entries ∧ (⟨"x", -1, false⟩ : Variable).name = "x") ∧
      vars.get? "pi" = some ⟨"pi", Variables.pi, true⟩ := by
  intro start lines vars
  have hnames : vars.names = ["pi", "e", "x", "é", "z"] := by decide +kernel
  have hm : "é" ∈ vars.names := by
    rw [hnames]
    decide
  obtain ⟨hkept, -, -, hwords⟩ := variables_kept.2 .declare lines
  refine ⟨hnames, by decide +kernel, hm, ?_, hkept.get?_eq_some_iff "x" ⟨"x", -1, false⟩,
    by decide +kernel⟩
  exact ((hwords "é" hm).resolve_left (by decide)).resolve_left (by decide)

end Reckoner
