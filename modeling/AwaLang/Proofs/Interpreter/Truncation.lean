import AwaLang.Proofs.Machine.Alignment
import AwaLang.Proofs.Machine.Traces

namespace AwaLang

open Instruction

variable {σ : Type} [Host σ]

theorem aligned_of_course {tokens : List Token} {program : Program}
    (resolved : Program.ofTokens? tokens = some program) {start machine : Machine} {origin host : σ}
    {count : Nat} (aligned : Aligned tokens start.cursor)
    (course : program.Course start origin count machine host) : Aligned tokens machine.cursor := by
  induction course with
  | start => exact aligned
  | done before turn ih => exact aligned_of_turn resolved ih turn
  | waited before turn later ih => exact ih

theorem Program.Fails.truncated {program : Program} {machine : Machine} {host : σ} {count : Nat}
    {failure : Failure} {op : Opcode} (fails : program.Fails count machine host failure)
    (missing : failure.cause = .missingParameter op) :
    at? program.tokens machine.cursor = some (.truncated op) := by
  rcases fails with ⟨left, after, failed⟩ | ⟨-, calls, next, after, -, rfl⟩
  · rcases Program.failure_of_turn failed with ⟨token, -, -, rfl⟩ | ⟨own, found, -, rfl⟩ |
      ⟨instruction, own, parameter, -, -, -, -, arises | ⟨message, broken⟩⟩
    · contradiction
    · rw [CallStack.cause_failure, Cause.missingParameter.injEq] at missing
      exact missing ▸ found
    · rw [missing] at arises
      contradiction
    · rw [missing] at broken
      contradiction
  · contradiction

theorem Interpreter.exists_truncated_of_comes {i : Interpreter σ} {tokens : List Token}
    {failure : Failure} {op : Opcode} (comes : i.Comes tokens (.failed failure))
    (missing : failure.cause = .missingParameter op) :
    ∃ placed ∈ ofTokens tokens, placed.instruction = .truncated op := by
  rcases fails_of_comes comes with ⟨unresolved, rfl⟩ |
    ⟨program, count, machine, host, resolved, -, course, fails⟩
  · rw [Cause.missingParameter.injEq] at missing
    exact missing ▸ Labels.ofTokens?_eq_none_iff.1 unresolved
  · have aligned := aligned_of_course resolved (aligned_zero tokens) course
    obtain ⟨labels, -, rfl⟩ := Option.map_eq_some_iff.1 resolved
    exact ⟨_, aligned.exists_placed (fails.truncated missing), rfl⟩

end AwaLang
