import Reckoner.Proofs.ResultLine

/-! # Console sessions as folds

The bytes of an input are cut behind each newline. A session folds over the texts
of its lines up to the first that asks to quit or cannot be decoded, so it does
not depend on what follows that line, nor on a newline at the very end. -/

namespace Reckoner.Console

/-! ## Lines of bytes -/

/-- The input is cut behind each of its newlines. A last piece without one is not
empty. -/
inductive Cut : List UInt8 → List (List UInt8) → Prop
  | nil : Cut [] []
  | last {piece} (hne : piece ≠ []) (hn : 10 ∉ piece) : Cut piece [piece]
  | line {piece rest pieces} (hn : 10 ∉ piece) (hr : Cut rest pieces) :
      Cut (piece ++ 10 :: rest) ((piece ++ [10]) :: pieces)

variable {input piece : List UInt8} {pieces : List (List UInt8)}

theorem linesFrom_of_not_mem (h : 10 ∉ piece) (current : List UInt8) :
    linesFrom current piece = linesFrom (piece.reverse ++ current) [] := by
  induction piece generalizing current with
  | nil => rfl
  | cons byte piece ih =>
      obtain ⟨hb, hn⟩ := not_or.mp (mt List.mem_cons.mpr h)
      rw [List.reverse_cons, List.append_assoc, List.singleton_append, ← ih hn]
      exact if_neg (Ne.symm hb)

theorem Cut.eq_lines (h : Cut input pieces) : pieces = lines input := by
  induction h with
  | nil => rfl
  | last hne hn =>
      rw [lines, linesFrom_of_not_mem hn, List.append_nil, linesFrom, if_neg (by simpa using hne),
        List.reverse_reverse]
  | line hn _ ih =>
      rw [lines, linesFrom_append_newline hn, ih, lines, List.reverse_nil, List.nil_append]

theorem cut_linesFrom {current : List UInt8} (h : 10 ∉ current) (input : List UInt8) :
    Cut (current.reverse ++ input) (linesFrom current input) := by
  induction input generalizing current with
  | nil =>
      rw [List.append_nil, linesFrom]
      split
      · rename_i he
        rw [List.isEmpty_iff.mp he]
        exact .nil
      · rename_i hne
        exact .last (by simpa using hne) (by simpa using h)
  | cons byte rest ih =>
      rw [linesFrom]
      split
      · rename_i hb
        subst hb
        rw [List.reverse_cons]
        exact .line (by simpa using h) (ih List.not_mem_nil)
      · rename_i hb
        have hcurrent : 10 ∉ byte :: current := by simp [h, Ne.symm hb]
        have hc := ih hcurrent
        rwa [List.reverse_cons, List.append_assoc, List.singleton_append] at hc

/-- The lines of an input are the only way to cut it. -/
theorem cut_iff : Cut input pieces ↔ pieces = lines input := by
  constructor
  · exact Cut.eq_lines
  · rintro rfl
    exact cut_linesFrom List.not_mem_nil input

theorem linesFrom_append_cons (current front rest : List UInt8) :
    linesFrom current (front ++ 10 :: rest) =
      linesFrom current (front ++ [10]) ++ linesFrom [] rest := by
  induction front generalizing current with
  | nil => rfl
  | cons byte front ih =>
      rw [List.cons_append, List.cons_append, linesFrom, linesFrom, ih, ih]
      split <;> rfl

/-- What follows a newline has lines of its own. -/
theorem lines_append (h : [10] <:+ input) (rest : List UInt8) :
    lines (input ++ rest) = lines input ++ lines rest := by
  obtain ⟨front, rfl⟩ := h
  rw [lines, List.append_assoc, List.singleton_append, linesFrom_append_cons]
  rfl

/-- A newline behind an input that does not end in one belongs to its last line. -/
theorem Cut.append_newline (h : Cut input pieces) (hne : input ≠ []) (hend : ¬ [10] <:+ input) :
    ∃ front last, pieces = front ++ [last] ∧ Cut (input ++ [10]) (front ++ [last ++ [10]]) := by
  induction h with
  | nil => exact absurd rfl hne
  | @last piece hne hn => exact ⟨[], piece, rfl, .line hn .nil⟩
  | @line piece rest pieces hn hr ih =>
      have hrest : rest ≠ [] := by
        rintro rfl
        exact hend (List.suffix_append piece [10])
      have hback : rest <:+ piece ++ 10 :: rest :=
        (List.suffix_cons 10 rest).trans (List.suffix_append piece _)
      obtain ⟨front, last, rfl, hc⟩ := ih hrest fun hs => hend (hs.trans hback)
      refine ⟨(piece ++ [10]) :: front, last, rfl, ?_⟩
      rw [List.append_assoc, List.cons_append]
      exact .line hn hc

/-! ## Texts of lines -/

/-- A text whose last byte is a newline ends in one. -/
theorem exists_of_encode_eq {text : String} (h : encode text = piece ++ [10]) :
    ∃ front, encode front = piece := by
  rw [encode_eq_flatMap] at h
  rcases List.eq_nil_or_concat' text.toList with hn | ⟨front, c, hc⟩
  · rw [hn] at h
    simp at h
  · rw [hc, List.flatMap_append, List.flatMap_singleton] at h
    have hlast : (10 : UInt8) ∈ String.utf8EncodeChar c := by
      rcases List.eq_nil_or_concat' (String.utf8EncodeChar c) with hn | ⟨bytes, byte, hb⟩
      · have hsize := String.length_utf8EncodeChar c
        rw [hn] at hsize
        exact absurd hsize.symm c.utf8Size_pos.ne'
      · rw [hb, ← List.append_assoc] at h
        obtain rfl : byte = 10 := List.singleton_inj.mp (List.append_inj_right' h rfl)
        rw [hb]
        exact List.mem_append_right _ List.mem_cons_self
    have hnewline : c = '\n' := by
      rcases toNat_of_mem_utf8EncodeChar hlast with he | he
      · exact Char.toNat_inj.mp he.symm
      · exact absurd he (by decide)
    subst hnewline
    refine ⟨String.ofList front, ?_⟩
    rw [encode_eq_flatMap, String.toList_ofList]
    exact List.append_inj_left' h rfl

/-- A newline behind a line neither makes nor mends a fault in it. -/
theorem decode?_append_newline (piece : List UInt8) :
    decode? (piece ++ [10]) = (decode? piece).map (· ++ "\n") := by
  cases hd : decode? piece with
  | some text =>
      have he : encode (text ++ "\n") = piece ++ [10] := by
        rw [encode_append, encode_of_decode? hd]
        rfl
      rw [← he, decode?_encode]
      rfl
  | none =>
      rw [Option.map_none, Option.eq_none_iff_forall_ne_some]
      intro text htext
      obtain ⟨front, hf⟩ := exists_of_encode_eq (encode_of_decode? htext)
      rw [← hf, decode?_encode] at hd
      cases hd

/-! ## Sessions -/

/-- The text ends the session. -/
def stops : Option String → Bool
  | none => true
  | some line => Command.ofLine line = .quit

/-- A session after one more line, which was answered behind a prompt. -/
def exchange (session : Session) (line : String) : Session :=
  let reply := reply session.calculator line
  { session with
    output := session.output ++ (prompt ++ reply.output)
    calculator := reply.calculator }

/-- The end of a session, behind its last prompt: at the text that stopped it, or at the end
of the input. -/
def close (session : Session) : Option (Option String) → Session
  | some none => { session with output := session.output ++ prompt, failed := true }
  | _ => { session with output := session.output ++ (prompt ++ farewell), failed := false }

/-- The lines that are answered: those in front of the first that stops. -/
def answered (texts : List (Option String)) : List String :=
  (texts.takeWhile (!stops ·)).filterMap id

variable {calculator : Calculator} {line : String} {texts : List (Option String)}

theorem stops_some_iff : stops (some line) = true ↔ Command.ofLine line = .quit := by
  rw [stops, decide_eq_true_eq]

/-- The session goes on behind a text that does not stop it. -/
theorem not_stops_of_goOn {text : Option String} {reply : Reply}
    (h : turn calculator text = .goOn reply) : ¬ stops text = true := by
  cases text with
  | none => cases h
  | some line =>
      rw [stops_some_iff]
      intro hq
      rw [turn, if_pos hq] at h
      cases h

theorem answered_cons_of_stops {text : Option String} (h : stops text = true) :
    answered (text :: texts) = [] := by
  rw [answered, List.takeWhile_cons_of_neg (by rw [h]; decide)]
  rfl

theorem answered_cons (h : ¬ stops (some line) = true) :
    answered (some line :: texts) = line :: answered texts := by
  rw [answered, List.takeWhile_cons_of_pos (by simpa using h)]
  rfl

/-- A session goes on from what it has written. -/
theorem answer_eq_close (session : Session) (texts : List (Option String)) :
    let later := answer session.calculator texts
    { later with output := session.output ++ later.output } =
      close ((answered texts).foldl exchange session) (texts.find? stops) := by
  induction texts generalizing session with
  | nil => rfl
  | cons text texts ih =>
      cases text with
      | none => rfl
      | some line =>
          by_cases hq : Command.ofLine line = .quit
          · have hs : stops (some line) = true := stops_some_iff.mpr hq
            rw [answer, turn, if_pos hq, answered_cons_of_stops hs, List.find?_cons_of_pos hs]
            rfl
          · have hs : ¬ stops (some line) = true := mt stops_some_iff.mp hq
            rw [answered_cons hs, List.foldl_cons, List.find?_cons_of_neg hs, ← ih, answer, turn,
              if_neg hq]
            simp only [exchange, String.append_assoc]

/-- What stands behind a text that stops is not read. -/
theorem answer_append (h : ∃ text ∈ texts, stops text = true) (more : List (Option String)) :
    answer calculator (texts ++ more) = answer calculator texts := by
  induction texts generalizing calculator with
  | nil =>
      obtain ⟨text, hm, -⟩ := h
      cases hm
  | cons text texts ih =>
      rw [List.cons_append, answer, answer]
      cases ht : turn calculator text with
      | quit => rfl
      | failed => rfl
      | goOn reply =>
          have hrest : ∃ text ∈ texts, stops text = true := by
            simpa [not_stops_of_goOn ht] using h
          simp only [ih hrest]

/-- A session depends on its last text only through its turn. -/
theorem answer_concat {text other : Option String}
    (h : ∀ calculator, turn calculator text = turn calculator other)
    (front : List (Option String)) :
    answer calculator (front ++ [text]) = answer calculator (front ++ [other]) := by
  induction front generalizing calculator with
  | nil => rw [List.nil_append, List.nil_append, answer, answer, h]
  | cons first front ih =>
      rw [List.cons_append, List.cons_append, answer, answer]
      simp only [ih]

/-! ## Lines and their replies -/

theorem calculator_reply_of_ne (h : Command.ofLine line ≠ .expression) :
    (reply calculator line).calculator = calculator := by
  unfold reply
  split
  · rfl
  · rfl
  · rfl
  · rfl
  · contradiction

/-- A session folds over the lines of its input, which is cut at its newlines, up to the first
that asks to quit or is not valid UTF-8: each is answered behind a prompt with what those before
it have left of the calculator, and the one that stops the session is not. So what follows that
line does not matter, and neither does a newline at the very end. Only an expression changes the
calculator, and it is answered by one line, with its result or with its error. -/
theorem run_folds_lines (calculator : Calculator) (input : List UInt8) :
    let texts := (lines input).map decode?
    (∀ pieces, Cut input pieces ↔ pieces = lines input) ∧
    run calculator input =
      close ((answered texts).foldl exchange ⟨greeting, calculator, false⟩) (texts.find? stops) ∧
    ((∃ text ∈ texts, stops text = true) → [10] <:+ input →
      ∀ rest, run calculator (input ++ rest) = run calculator input) ∧
    (input ≠ [] → ¬ [10] <:+ input → run calculator (input ++ [10]) = run calculator input) ∧
    (∀ before line, Command.ofLine line = .expression →
      let answer := before.answer (String.ofList (Text.trim line.toList))
      ∃ shown, '\n' ∉ shown.toList ∧ reply before line = ⟨shown ++ "\n", answer.calculator⟩ ∧
        match answer.result with
        | .ok evaluation => shown = Display.evaluation evaluation
        | .error cause => shown = "Error: " ++ cause.message) ∧
    (∀ before line, Command.ofLine line ≠ .expression →
      (reply before line).calculator = before) ∧
    ∀ before line, Command.ofLine line = .blank → (reply before line).output = "" := by
  intro texts
  refine ⟨fun pieces => cut_iff, ?_, ?_, ?_, ?_, ?_, ?_⟩
  · exact answer_eq_close ⟨greeting, calculator, false⟩ texts
  · intro hstop hend rest
    rw [run, lines_append hend, List.map_append, answer_append hstop, ← run]
  · intro hne hend
    obtain ⟨front, last, hlines, hcut⟩ := (cut_iff.mpr rfl).append_newline hne hend
    have hturn (calculator : Calculator) :
        turn calculator (decode? (last ++ [10])) = turn calculator (decode? last) := by
      rw [decode?_append_newline]
      cases decode? last with
      | none => rfl
      | some text => exact turn_append_newline calculator text
    rw [run, run, ← hcut.eq_lines, hlines, List.map_append, List.map_append]
    simp only [List.map_singleton, answer_concat hturn]
  · intro before line hc answer
    have hone : OneLine (resultText answer.result) := oneLine_resultText before _
    refine ⟨resultText answer.result, hone, reply_of_expression hc, ?_⟩
    cases answer.result <;> rfl
  · intro before line hc
    exact calculator_reply_of_ne hc
  · intro before line hc
    rw [reply, hc]

/-- An empty line is answered by nothing, and bytes behind a line that quits are not read. -/
example : (run (.start .declare) (encode "1 + 1\n\nq\n" ++ [0xff])).output =
    greeting ++ " 2\n" ++ " " ++ " " ++ farewell := by decide +kernel

end Reckoner.Console
