import Mathlib.Tactic.SplitIfs
import Reckoner.Console
import Reckoner.Proofs.Sessions
import Reckoner.Proofs.Words

/-! # Lines on the console

A line sent as UTF-8 with a newline behind it is read back, and answered, as
what it was: no byte inside a character is a newline. -/

namespace Reckoner

namespace Console

variable {calculator : Calculator} {line : String} {lines : List String}

/-- A byte of a character is the character itself or has its highest bit set. -/
theorem toNat_of_mem_utf8EncodeChar {c : Char} {byte : UInt8}
    (h : byte ∈ String.utf8EncodeChar c) : byte.toNat = c.toNat ∨ 128 ≤ byte.toNat := by
  have hc : c.toNat = c.val.toNat := rfl
  simp only [String.utf8EncodeChar] at h
  split at h
  · left
    rw [List.mem_singleton.mp h, UInt8.toNat_ofNat']
    omega
  · right
    split_ifs at h <;> simp only [List.mem_cons, List.not_mem_nil, or_false] at h <;>
      rcases h with rfl | rfl | rfl | rfl <;> simp only [UInt8.toNat_ofNat'] <;> omega

/-- The bytes that send a text. -/
def encode (text : String) : List UInt8 := text.toUTF8.data.toList

theorem encode_eq_flatMap (text : String) :
    encode text = text.toList.flatMap String.utf8EncodeChar := by
  rw [encode, String.toUTF8_eq_toByteArray, ← String.utf8Encode_toList, List.utf8Encode,
    List.toList_data_toByteArray]

theorem encode_append (front back : String) :
    encode (front ++ back) = encode front ++ encode back := by
  rw [encode_eq_flatMap, String.toList_append, List.flatMap_append, encode_eq_flatMap,
    encode_eq_flatMap]

/-- What was sent is read. -/
theorem decode?_encode (text : String) : decode? (encode text) = some text := by
  rw [decode?, encode, Array.toArray_toList, String.fromUTF8?, String.toUTF8_eq_toByteArray,
    dif_pos text.isValidUTF8]
  rfl

/-- What is read was sent. -/
theorem encode_of_decode? {bytes : List UInt8} {text : String} (h : decode? bytes = some text) :
    encode text = bytes := by
  rw [decode?, String.fromUTF8?] at h
  split at h
  · cases h
    rfl
  · cases h

theorem newline_not_mem_encode (h : '\n' ∉ line.toList) : (10 : UInt8) ∉ encode line := by
  rw [encode_eq_flatMap, List.mem_flatMap]
  rintro ⟨c, hm, hb⟩
  rcases toNat_of_mem_utf8EncodeChar hb with he | he
  · have hc : c = '\n' := Char.toNat_inj.mp he.symm
    exact h (hc ▸ hm)
  · exact absurd he (by decide)

theorem linesFrom_append_newline {bytes : List UInt8} (h : 10 ∉ bytes)
    (current rest : List UInt8) :
    linesFrom current (bytes ++ 10 :: rest) =
      (current.reverse ++ (bytes ++ [10])) :: linesFrom [] rest := by
  induction bytes generalizing current with
  | nil => simp [linesFrom]
  | cons byte bytes ih =>
      obtain ⟨hb, hn⟩ := not_or.mp (mt List.mem_cons.mpr h)
      rw [List.cons_append, linesFrom, if_neg (Ne.symm hb), ih hn]
      simp

/-- Lines that end in a newline are read one by one. -/
theorem lines_flatMap (h : ∀ line ∈ lines, '\n' ∉ line.toList) :
    Console.lines (lines.flatMap fun line => encode (line ++ "\n")) =
      lines.map fun line => encode (line ++ "\n") := by
  induction lines with
  | nil => rfl
  | cons line rest ih =>
      obtain ⟨hl, hr⟩ := List.forall_mem_cons.mp h
      have he : encode (line ++ "\n") = encode line ++ [10] := encode_append line "\n"
      rw [List.flatMap_cons, List.map_cons, he, List.append_assoc, List.singleton_append]
      rw [Console.lines, linesFrom_append_newline (newline_not_mem_encode hl)]
      rw [← Console.lines, ih hr]
      rfl

/-- What the answer to an expression shows. -/
def resultText : Except LineError Evaluation → String
  | .ok evaluation => Display.evaluation evaluation
  | .error cause => "Error: " ++ cause.message

theorem reply_of_expression (hc : Command.ofLine line = .expression) :
    reply calculator line =
      let answer := calculator.answer (String.ofList (Text.trim line.toList))
      ⟨resultText answer.result ++ "\n", answer.calculator⟩ := by
  rw [reply, hc]
  dsimp only
  split <;> rename_i hr <;> rw [hr] <;> rfl

/-- An expression is answered by one line. -/
theorem turn_of_expression (hc : Command.ofLine line = .expression) :
    turn calculator (some line) =
      let answer := calculator.answer (String.ofList (Text.trim line.toList))
      .goOn ⟨resultText answer.result ++ "\n", answer.calculator⟩ := by
  rw [turn, if_neg (by rw [hc]; decide), reply_of_expression hc]

theorem trim_append_newline (line : String) :
    Text.trim (line ++ "\n").toList = Text.trim line.toList := by
  rw [String.toList_append]
  exact Text.trim_append_blank (by decide) _

theorem ofLine_append_newline (line : String) :
    Command.ofLine (line ++ "\n") = Command.ofLine line := by
  rw [Command.ofLine, trim_append_newline, ← Command.ofLine]

/-- The newline that ends a line does not matter. -/
theorem reply_append_newline (calculator : Calculator) (line : String) :
    reply calculator (line ++ "\n") = reply calculator line := by
  rw [reply, ofLine_append_newline, trim_append_newline, ← reply]

theorem turn_append_newline (calculator : Calculator) (line : String) :
    turn calculator (some (line ++ "\n")) = turn calculator (some line) := by
  rw [turn, ofLine_append_newline, reply_append_newline, ← turn]

theorem turn_of_plain (h : Plain line) :
    turn calculator (some (line ++ "\n")) =
      .goOn ⟨resultText (calculator.answer line).result ++ "\n",
        (calculator.answer line).calculator⟩ := by
  rw [turn_append_newline, turn_of_expression h.command, h.ofList_trim]

/-- What a session writes for its results, each behind a prompt. -/
def transcript (results : List (Except LineError Evaluation)) : String :=
  String.join (results.map fun result => prompt ++ (resultText result ++ "\n"))

theorem answer_of_plain (h : ∀ line ∈ lines, Plain line) :
    answer calculator (lines.map fun line => some (line ++ "\n")) =
      ⟨transcript (calculator.results lines) ++ (prompt ++ farewell), calculator.feed lines,
        false⟩ := by
  induction lines generalizing calculator with
  | nil => simp [answer, transcript]
  | cons line rest ih =>
      obtain ⟨hl, hr⟩ := List.forall_mem_cons.mp h
      rw [List.map_cons, answer, turn_of_plain hl]
      simp only [ih hr, Calculator.feed_cons, Calculator.results_cons, transcript, List.map_cons,
        String.join_cons, String.append_assoc]

/-- A session on plain lines shows every result and ends with its input. -/
theorem run_of_plain (h : ∀ line ∈ lines, Plain line) :
    run calculator (lines.flatMap fun line => encode (line ++ "\n")) =
      ⟨greeting ++ (transcript (calculator.results lines) ++ (prompt ++ farewell)),
        calculator.feed lines, false⟩ := by
  have hd : (decode? ∘ fun line => encode (line ++ "\n")) = fun line => some (line ++ "\n") :=
    funext fun line => decode?_encode (line ++ "\n")
  rw [run, lines_flatMap fun line hm => (h line hm).newline, List.map_map, hd, answer_of_plain h]

end Console
end Reckoner
