import Mathlib.Data.List.Infix
import Reckoner.LineEditor
import Reckoner.Proofs.Sessions

/-! # Typing lines

A line typed at the end of the input is redrawn on its row before each key and
answered by Enter. Each answer leaves the editor ready for the next line, on
the row the terminal tells for it. -/

namespace Reckoner

@[simp] theorem InputLine.before_ofChars (text : List Char) : (ofChars text).before = text := by
  rw [before, clusters, ofChars, List.take_length, Unicode.flatten_clusters]

@[simp] theorem InputLine.after_ofChars (text : List Char) : (ofChars text).after = [] := by
  rw [after, clusters, ofChars, List.drop_length, List.flatten_nil]

@[simp] theorem InputLine.ofChars_nil : ofChars [] = empty := by
  simp [ofChars, Unicode.clusters, Unicode.clustersFrom, empty]

/-- Typing at the end makes the text longer. -/
theorem InputLine.insert_ofChars (text : List Char) (c : Char) :
    (ofChars text).insert c = ofChars (text ++ [c]) := by
  rw [insert, before_ofChars, after_ofChars, List.append_nil, ofChars]

namespace LineEditor

variable {rows : Nat → UInt16} {calculator : Calculator} {nanoseconds number : Nat}
  {row : UInt16} {line : String} {lines : List String}

/-- What redrawing an input line on a row sends. -/
def redrawn (row : UInt16) (input : InputLine) : String :=
  goto row 1 ++ "\x1b[2K" ++ prompt ++ input.text ++
    goto row (1 + prompt.length + input.widthBefore)

/-- Everything written has reached the terminal. -/
theorem draw_flushed (row : UInt16) (calculator : Calculator) (history : History)
    (input : InputLine) (flushes : List String) :
    draw row ⟨calculator, history, input, "", flushes⟩ =
      ⟨calculator, history, input, "", flushes ++ [redrawn row input]⟩ := by
  simp only [draw, State.write, State.flush, String.empty_append, redrawn]

/-- The keys that type a line and enter it. -/
def keysOf (line : String) : List (Option LineKey) :=
  line.toList.map (fun c => some (.char c)) ++ [some (.char '\n')]

/-- What typing a text behind another sends, up to the key that enters it. -/
def echo (row : UInt16) (typed text : List Char) : List String :=
  text.inits.map fun front => redrawn row (.ofChars (typed ++ front))

@[simp] theorem echo_nil (row : UInt16) (typed : List Char) :
    echo row typed [] = [redrawn row (.ofChars typed)] := by
  simp [echo]

theorem echo_cons (row : UInt16) (typed text : List Char) (c : Char) :
    echo row typed (c :: text) = redrawn row (.ofChars typed) :: echo row (typed ++ [c]) text := by
  simp [echo, Function.comp_def]

/-- A character that is not Enter is typed, and the row stays. -/
theorem readKeys_char {c : Char} (hc : c ≠ '\n') (history : History) (typed : List Char)
    (flushes : List String) (rest : List (Option LineKey)) :
    readKeys (fun n => some (rows n)) nanoseconds number row
        ⟨calculator, history, .ofChars typed, "", flushes⟩ (some (.char c) :: rest) =
      readKeys (fun n => some (rows n)) nanoseconds number row
        ⟨calculator, history, .ofChars (typed ++ [c]), "",
          flushes ++ [redrawn row (.ofChars typed)]⟩ rest := by
  have hk : LineKey.char c ≠ .char '\n' := fun h => hc (LineKey.char.inj h)
  rw [readKeys, draw_flushed, press?, if_neg hk, ← InputLine.insert_ofChars]
  exact if_neg hk

/-- Enter begins the next line on a row of its own. -/
theorem readKeys_enter {history : History} {input : InputLine} {flushes : List String}
    {next : State}
    (he : enter? ⟨calculator, history, input, "", flushes ++ [redrawn row input]⟩ nanoseconds =
      some next) (rest : List (Option LineKey)) :
    readKeys (fun n => some (rows n)) nanoseconds number row
        ⟨calculator, history, input, "", flushes⟩ (some (.char '\n') :: rest) =
      readKeys (fun n => some (rows n)) nanoseconds (number + 1) (rows (number + 1)) next
        rest := by
  rw [readKeys, draw_flushed, press?, if_pos rfl, he]
  exact if_pos rfl

/-- The characters of a line reach Enter one by one. -/
theorem readKeys_typed {history : History} {next : State} {text : List Char}
    (hn : '\n' ∉ text) {typed : List Char} {flushes : List String}
    (he : enter?
      ⟨calculator, history, .ofChars (typed ++ text), "", flushes ++ echo row typed text⟩
      nanoseconds = some next) (rest : List (Option LineKey)) :
    readKeys (fun n => some (rows n)) nanoseconds number row
        ⟨calculator, history, .ofChars typed, "", flushes⟩
        (text.map (fun c => some (.char c)) ++ some (.char '\n') :: rest) =
      readKeys (fun n => some (rows n)) nanoseconds (number + 1) (rows (number + 1)) next
        rest := by
  induction text generalizing typed flushes with
  | nil =>
      rw [echo_nil, List.append_nil] at he
      rw [List.map_nil, List.nil_append, readKeys_enter he]
  | cons c text ih =>
      obtain ⟨hc, ht⟩ := not_or.mp (mt List.mem_cons.mpr hn)
      rw [List.map_cons, List.cons_append, readKeys_char (Ne.symm hc)]
      apply ih ht
      rwa [List.append_assoc, List.append_assoc, List.singleton_append, List.singleton_append,
        ← echo_cons]

/-- What Enter sends for a line with a result. -/
def answered (line : String) (result : Except LineError Evaluation) : List String :=
  ["\r\n" ++ (resultLine line result ++ "\r\n"), "\r\n"]

theorem enter?_of_plain (h : Plain line) (history : History) (flushes : List String) :
    enter? ⟨calculator, history, .ofChars line.toList, "", flushes⟩ nanoseconds =
      some ⟨(calculator.answer line).calculator, history.push line, .empty, "",
        flushes ++ answered line (calculator.answer line).result⟩ := by
  simp only [enter?, InputLine.ofChars, h.ofList_trim, h.command, h.keeps]
  simp [evaluateLine, h.request, h.ne_empty, State.writeLines, State.writeEach, State.write,
    State.flush, answered, Calculator.answer, String.join]

/-- A plain line is typed and answered, and the input is empty again. -/
theorem readKeys_line (h : Plain line) (history : History) (flushes : List String)
    (rest : List (Option LineKey)) :
    readKeys (fun n => some (rows n)) nanoseconds number row
        ⟨calculator, history, .empty, "", flushes⟩ (keysOf line ++ rest) =
      readKeys (fun n => some (rows n)) nanoseconds (number + 1) (rows (number + 1))
        ⟨(calculator.answer line).calculator, history.push line, .empty, "",
          flushes ++ (echo row [] line.toList ++ answered line (calculator.answer line).result)⟩
        rest := by
  rw [keysOf, List.append_assoc, List.singleton_append, ← InputLine.ofChars_nil]
  apply readKeys_typed h.newline
  rw [List.nil_append, enter?_of_plain h, InputLine.ofChars_nil, List.append_assoc]

/-- What typing and answering lines sends, the first of them on the row of the
given number. -/
def exchanged (rows : Nat → UInt16) (number : Nat) (lines : List String)
    (results : List (Except LineError Evaluation)) : List String :=
  ((lines.zip results).zipIdx number).flatMap fun ((line, result), number) =>
    echo (rows number) [] line.toList ++ answered line result

theorem readKeys_of_plain (h : ∀ line ∈ lines, Plain line) (history : History)
    (flushes : List String) :
    readKeys (fun n => some (rows n)) nanoseconds number (rows number)
        ⟨calculator, history, .empty, "", flushes⟩ (lines.flatMap keysOf) =
      ⟨flushes ++ exchanged rows number lines (calculator.results lines) ++
        [redrawn (rows (number + lines.length)) .empty, "Goodbye!\r\n"],
        calculator.feed lines, 0, none⟩ := by
  induction lines generalizing calculator history flushes number with
  | nil =>
      rw [List.flatMap_nil, readKeys, draw_flushed]
      simp [leave, exchanged, State.writeLines, State.write, State.flush, String.join]
  | cons line rest ih =>
      obtain ⟨hl, hr⟩ := List.forall_mem_cons.mp h
      have hn : number + 1 + rest.length = number + (rest.length + 1) := by omega
      rw [List.flatMap_cons, readKeys_line hl, ih hr, hn]
      simp [exchanged, List.zipIdx_cons, List.append_assoc]

/-- A session on plain lines answers every one and ends with its input. -/
theorem run_of_plain (h : ∀ line ∈ lines, Plain line) :
    run (fun n => some (rows n)) calculator nanoseconds (lines.flatMap keysOf) =
      ⟨String.join (banner.map (· ++ "\r\n")) ::
          (exchanged rows 0 lines (calculator.results lines) ++
            [redrawn (rows lines.length) .empty, "Goodbye!\r\n"]),
        calculator.feed lines, 0, none⟩ := by
  rw [run, State.writeLines, State.write, State.flush, String.empty_append, List.nil_append]
  dsimp only
  rw [readKeys_of_plain h, Nat.zero_add, List.append_assoc, List.singleton_append]

end LineEditor
end Reckoner
