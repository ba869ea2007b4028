import Reckoner.Proofs.Console
import Reckoner.Proofs.Evaluation.ErrorPlaces
import Reckoner.Proofs.TableHistory
import Reckoner.Proofs.Token.Printing

/-! # Results take one line

A result is shown as digits, signs and names, and a message quotes nothing but
names, operators and what was read where a token should begin. None of these is
blank, so none of them breaks a line. -/

namespace Reckoner

open Unicode

/-- The text has no newline. -/
def OneLine (text : String) : Prop := '\n' ∉ text.toList

instance (text : String) : Decidable (OneLine text) :=
  inferInstanceAs (Decidable ('\n' ∉ text.toList))

namespace OneLine

theorem append {front back : String} (hf : OneLine front) (hb : OneLine back) :
    OneLine (front ++ back) := by
  rw [OneLine, String.toList_append, List.mem_append]
  exact not_or.mpr ⟨hf, hb⟩

/-- A newline is blank. -/
theorem of_solid {text : String} (h : ∀ c ∈ text.toList, isBlank c = false) : OneLine text := by
  intro hm
  exact absurd (h '\n' hm) (by decide)

theorem character {c : Char} (hc : isBlank c = false) : OneLine c.toString := by
  apply of_solid
  intro other hm
  obtain rfl : other = c := by simpa using hm
  exact hc

theorem name {name : String} (h : IsName name) : OneLine name := by
  obtain ⟨first, rest, hname, hfirst, hrest⟩ := h
  apply of_solid
  rw [hname]
  refine List.forall_mem_cons.mpr ⟨isBlank_of_isAlphabetic hfirst, ?_⟩
  intro c hm
  rw [← Bool.not_eq_true]
  intro hb
  exact absurd (hrest c hm) (by rw [isAlphanumeric_of_isBlank hb]; decide)

theorem literal {literal : Literal} (h : literal.Proper) :
    OneLine (String.ofList literal.chars) := by
  apply of_solid
  rw [String.toList_ofList]
  intro c hm
  exact isBlank_of_isDigit (h.digit_or_point hm)

theorem decimal (d : Decimal) : OneLine d.text := by
  rw [Decimal.text, ← d.chars_literal]
  exact literal d.proper_literal

theorem nat (n : Nat) : OneLine (toString n) := by
  apply of_solid
  intro c hm
  rw [Nat.toString_eq_repr, Nat.toList_repr] at hm
  have hd : c.isDigit = true := Nat.isDigit_of_mem_toDigits (by decide) (by decide) hm
  exact isBlank_of_isDigit (by rw [hd, Bool.true_or])

theorem int (n : Int) : OneLine (toString n) := by
  cases n with
  | ofNat n => exact nat n
  | negSucc n => exact append (by decide) (nat (n + 1))

end OneLine

namespace Display

theorem oneLine_magnitudeText (units : Nat) : OneLine (magnitudeText units) := by
  unfold magnitudeText
  split
  · exact ((OneLine.decimal _).append (by decide)).append (OneLine.int _)
  · exact OneLine.decimal _

theorem oneLine_number (x : Float) : OneLine (number x) := by
  unfold number
  split
  · decide
  · split <;> decide
  · split
    · exact OneLine.append (by decide) (oneLine_magnitudeText _)
    · exact oneLine_magnitudeText _

/-- A value is shown on one line with the name that it is assigned to. -/
theorem oneLine_evaluation {evaluation : Evaluation}
    (h : ∀ name, evaluation.assigned = some name → IsName name) :
    OneLine (Display.evaluation evaluation) := by
  unfold Display.evaluation
  split
  · rename_i name hname
    exact ((OneLine.name (h name hname)).append (by decide)).append (oneLine_number _)
  · exact oneLine_number _

end Display

/-- A message quotes a literal, or a character that is not blank. -/
theorem Token.oneLine_of_scan_error {column : Nat} {text : List Char} {fault : TokenError}
    (h : scan column text = .error fault) : OneLine fault.message := by
  obtain ⟨offset, c, rest, raised, -, hsolid, hnext, rfl⟩ := exists_next_of_scan_error h
  rcases fault_eq_of_next hnext with rfl | rfl
  · have hliteral := OneLine.literal (Literal.proper_ofText (c :: rest))
    exact ((OneLine.append (by decide) hliteral).append (by decide)).append (OneLine.nat _)
  · have hcharacter := OneLine.character hsolid
    exact ((OneLine.append (by decide) hcharacter).append (by decide)).append (OneLine.nat _)

/-- The only text in a message is a name. -/
theorem EvalError.oneLine_message {fault : EvalError}
    (h : ∀ name, fault = .unbound name → OneLine name) : OneLine fault.message := by
  cases fault with
  | empty | noValue | unclosedParen | unopenedParen | badTarget | adjacentOperands => decide
  | operandExpected position => exact OneLine.append (by decide) (OneLine.nat _)
  | misplacedAssign position => exact OneLine.append (by decide) (OneLine.nat _)
  | danglingOperator op =>
      have hsymbol : isBlank op.symbol = false := by cases op <;> decide
      exact (OneLine.append (by decide) (OneLine.character hsymbol)).append (by decide)
  | unbound name => exact (OneLine.append (by decide) (h name rfl)).append (by decide)

variable {policy : NamePolicy} {tokens : List Token} {vars : Variables} {trace : Trace}
variable {line : String}

theorem isName_of_assigned {evaluation : Evaluation} (ht : tokenize line = .ok tokens)
    (h : (evaluate policy tokens vars trace).result = .ok evaluation) {name : String}
    (hname : evaluation.assigned = some name) : IsName name := by
  obtain ⟨next, rest, htokens⟩ := (assigned_eq_some_iff h).mp hname
  apply isName_of_tokenize ht
  rw [htokens]
  exact List.mem_cons_self

theorem isName_of_unbound {name : String} (ht : tokenize line = .ok tokens)
    (h : (evaluate policy tokens vars trace).result = .error (.unbound name)) : IsName name := by
  obtain ⟨⟨front, htokens, -⟩, hplaced⟩ := placed_of_evaluate_error h nofun nofun
  cases hplaced with
  | unbound _ hm _ =>
      apply isName_of_tokenize ht
      rw [htokens]
      exact List.mem_append_right _ hm

/-- What the answer to a line shows takes one line. -/
theorem Console.oneLine_resultText (calculator : Calculator) (line : String) :
    OneLine (resultText (calculator.answer line).result) := by
  rw [Calculator.answer, Calculator.answerTracing]
  cases ht : tokenize line with
  | error cause =>
      exact OneLine.append (by decide) (Token.oneLine_of_scan_error ht)
  | ok tokens =>
      cases hr : (evaluate calculator.policy tokens calculator.vars (.start false)).result with
      | ok evaluation =>
          simp only [hr]
          exact Display.oneLine_evaluation fun name => isName_of_assigned ht hr
      | error fault =>
          simp only [hr]
          refine OneLine.append (by decide) (EvalError.oneLine_message ?_)
          rintro name rfl
          exact OneLine.name (isName_of_unbound ht hr)

end Reckoner
