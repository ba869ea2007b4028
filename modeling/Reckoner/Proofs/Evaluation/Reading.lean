import Reckoner.Proofs.Evaluation.PowerChain
import Reckoner.Proofs.Evaluation.Sum
import Mathlib.Logic.Relation

/-! # Readings of a line

A reading is a point between two steps: the tokens read so far, those to come
and the machine. A successful evaluation is a run of steps that reads all
tokens, followed by the sum of what is left on the stacks. -/

namespace Reckoner

/-- A point between two steps of an evaluation. -/
structure Reading where
  done : List Token
  rest : List Token
  machine : Machine

namespace Reading

/-- One step reads the next token and those that belong to it. The scanned
tokens of the line begin at `start`. -/
inductive Next (policy : NamePolicy) (start : Nat) : Reading → Reading → Prop
  | step {done piece token tokens machine machine'} {rest : Run.Rest tokens}
      (hs : (Run.step policy (start + done.length) token tokens).run machine = .ok rest machine')
      (hp : token :: tokens = piece ++ rest.1) :
      Next policy start ⟨done, token :: tokens, machine⟩ ⟨done ++ piece, rest.1, machine'⟩

/-- Some steps lead from one reading to another. -/
abbrev Leads (policy : NamePolicy) (start : Nat) : Reading → Reading → Prop :=
  Relation.ReflTransGen (Next policy start)

variable {policy : NamePolicy} {start : Nat} {first second : Reading}

/-- What the rest of a reading does, whatever led to it. -/
def remainder (policy : NamePolicy) (start : Nat) (reading : Reading) :
    EStateM.Result EvalError Machine Unit :=
  (Run.readTokens policy (start + reading.done.length) reading.rest).run reading.machine

/-- The position behind a step counts the tokens that the step has read. -/
theorem position_eq {done piece tokens : List Token} {token : Token} (rest : Run.Rest tokens)
    (hp : token :: tokens = piece ++ rest.1) :
    start + done.length + 1 + (tokens.length - rest.1.length) = start + (done ++ piece).length := by
  have hl : tokens.length + 1 = piece.length + rest.1.length := by
    simpa using congrArg List.length hp
  have hle : rest.1.length ≤ tokens.length := rest.2.length_le
  rw [List.length_append]
  omega

theorem Next.remainder_eq (h : Next policy start first second) :
    first.remainder policy start = second.remainder policy start := by
  obtain @⟨done, piece, token, tokens, machine, machine', ⟨rest, hr⟩, hs, hp⟩ := h
  simp only [remainder]
  rw [Run.readTokens, Run.bind_of_ok hs]
  simp only
  rw [position_eq ⟨rest, hr⟩ hp]

theorem Leads.remainder_eq (h : Leads policy start first second) :
    first.remainder policy start = second.remainder policy start := by
  induction h with
  | refl => rfl
  | tail _ hn ih => exact ih.trans hn.remainder_eq

/-- Steps neither add nor lose tokens. -/
theorem Leads.tokens_eq (h : Leads policy start first second) :
    first.done ++ first.rest = second.done ++ second.rest := by
  induction h with
  | refl => rfl
  | tail _ hn ih =>
      obtain ⟨hs, hp⟩ := hn
      rw [ih]
      simp [hp]

variable (policy start) in
/-- Steps lead to the end of the tokens or to a step that fails. -/
theorem exists_leads (done tokens : List Token) (machine : Machine) :
    ∃ reading, Leads policy start ⟨done, tokens, machine⟩ reading ∧
      (reading.rest = [] ∨ ∃ token tokens' fault final, reading.rest = token :: tokens' ∧
        (Run.step policy (start + reading.done.length) token tokens').run reading.machine =
          .error fault final) := by
  cases tokens with
  | nil => exact ⟨_, .refl, .inl rfl⟩
  | cons token tokens =>
      cases hs : (Run.step policy (start + done.length) token tokens).run machine with
      | error fault final => exact ⟨_, .refl, .inr ⟨token, tokens, fault, final, rfl, hs⟩⟩
      | ok next middle =>
          obtain ⟨rest, hsuffix⟩ := next
          obtain ⟨piece, hp⟩ : ∃ piece, piece ++ rest = token :: tokens :=
            hsuffix.trans (List.suffix_cons token tokens)
          obtain ⟨reading, hl, hend⟩ := exists_leads (done ++ piece) rest middle
          exact ⟨reading, .head (Next.step hs hp.symm) hl, hend⟩
termination_by tokens.length
decreasing_by
  have hle := hsuffix.length_le
  simp only [List.length_cons]
  omega

/-- Where a step fails the whole rest fails. -/
theorem remainder_of_step_error {reading : Reading} {token : Token} {tokens : List Token}
    {fault : EvalError} {final : Machine} (hr : reading.rest = token :: tokens)
    (hs : (Run.step policy (start + reading.done.length) token tokens).run reading.machine =
      .error fault final) : reading.remainder policy start = .error fault final := by
  rw [remainder, hr, Run.readTokens, Run.bind_of_error hs]

/-- Tokens are read to the end exactly when steps lead there. -/
theorem readTokens_eq_ok_iff (done : List Token) {tokens : List Token} {machine final : Machine} :
    (Run.readTokens policy (start + done.length) tokens).run machine = .ok () final ↔
      Leads policy start ⟨done, tokens, machine⟩ ⟨done ++ tokens, [], final⟩ := by
  constructor
  · intro h
    obtain ⟨⟨done', rest, machine'⟩, hl, hend⟩ := exists_leads policy start done tokens machine
    have he := hl.remainder_eq
    have ht := hl.tokens_eq
    rw [remainder, h] at he
    rcases hend with hrest | ⟨token, tokens', fault, final', hrest, hs⟩
    · obtain rfl : rest = [] := hrest
      rw [remainder, Run.readTokens, Run.pure_apply] at he
      cases he
      rw [List.append_nil] at ht
      rwa [ht]
    · rw [remainder_of_step_error hrest hs] at he
      cases he
  · intro h
    have he := h.remainder_eq
    simp only [remainder] at he
    rw [he, Run.readTokens, Run.pure_apply]

/-- A reading that fails does so in a step that it leads to. -/
theorem exists_step_of_error (done : List Token) {tokens : List Token} {machine final : Machine}
    {fault : EvalError}
    (h : (Run.readTokens policy (start + done.length) tokens).run machine = .error fault final) :
    ∃ reading token tokens', Leads policy start ⟨done, tokens, machine⟩ reading ∧
      reading.rest = token :: tokens' ∧
      (Run.step policy (start + reading.done.length) token tokens').run reading.machine =
        .error fault final := by
  obtain ⟨reading, hl, hend⟩ := exists_leads policy start done tokens machine
  have he := hl.remainder_eq
  rw [remainder, h] at he
  rcases hend with hrest | ⟨token, tokens', fault', final', hrest, hs⟩
  · rw [remainder, hrest, Run.readTokens, Run.pure_apply] at he
    cases he
  · rw [remainder_of_step_error hrest hs] at he
    cases he
    exact ⟨reading, token, tokens', hl, hrest, hs⟩

end Reading
end Reckoner
