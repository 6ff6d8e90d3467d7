import AwaLang.Proofs.Instruction.Relabelling
import AwaLang.Proofs.Machine.Alignment
import AwaLang.Proofs.Machine.Congruence

namespace AwaLang

open Instruction

theorem Labels.goto_relabel {rename : Token → Token} {names : Set Token} {labels : Labels}
    {label : Token} (apart : Set.InjOn rename names) (within : labels.Within names)
    (named : label ∈ names) (next : Nat) :
    (labels.relabel rename).goto (rename label) next = labels.goto label next := by
  rw [goto, goto, find?_relabel apart within named]

theorem Aligned.at?_relabel {tokens : List Token} {index : Nat} (aligned : Aligned tokens index)
    (rename : Token → Token) :
    at? (AwaLang.relabel rename tokens) index = (at? tokens index).map (.relabel rename) := by
  rcases aligned with ended | ⟨placed, member, rfl⟩
  · simp [at?, ended]
  · have place : placed.address ∈ operationIndices tokens := by
      rw [← addresses_ofTokens]
      exact List.mem_map_of_mem member
    exact Instruction.at?_relabel (mem_operationIndices.1 place).2

theorem Instruction.namesLabel_of_at?_plain {tokens : List Token} {index : Nat} {op : Opcode}
    (found : at? tokens index = some (.plain op)) : op.namesLabel = false := by
  have alone := takesParameter_of_at?_plain found
  rw [Bool.eq_false_iff]
  intro names
  rw [Opcode.takesParameter_of_namesLabel names] at alone
  contradiction

namespace Program

def relabel (rename : Token → Token) (program : Program) : Program :=
  ⟨AwaLang.relabel rename program.tokens, program.labels.relabel rename⟩

variable {rename : Token → Token} {tokens : List Token} {program : Program} {machine : Machine}

theorem ofTokens?_relabel (apart : Set.InjOn rename (labelNames tokens)) :
    ofTokens? (AwaLang.relabel rename tokens) = (ofTokens? tokens).map (relabel rename) := by
  rw [ofTokens?, ofTokens?, Labels.ofTokens?_relabel apart]
  cases Labels.ofTokens? tokens <;> rfl

/-- An operation asks of a label only where it leads. -/
theorem perform_relabel {op : Opcode} {parameter : Token} {next : Nat}
    (leads : op.namesLabel = true →
      (program.labels.relabel rename).goto (rename parameter) next =
        program.labels.goto parameter next) (abyss : Abyss) :
    (program.relabel rename).perform op (if op.namesLabel then rename parameter else parameter)
        next abyss = program.perform op parameter next abyss := by
  cases op with
  | jmp | eql | lss | gr8 | eqz =>
    have same := leads rfl
    simp only [perform, Effect.branch, relabel, Opcode.namesLabel, Opcode.isJump, Bool.or_true,
      if_true, same]
  | trm => simp [perform, relabel]
  | _ => rfl

theorem perform_relabel_of_plain {op : Opcode} (plain : op.namesLabel = false) (parameter : Token)
    (next : Nat) (abyss : Abyss) :
    (program.relabel rename).perform op parameter next abyss =
      program.perform op parameter next abyss := by
  have same := @perform_relabel rename program op parameter next (by simp [plain]) abyss
  simpa [plain] using same

theorem readsAt_relabel (aligned : Aligned program.tokens machine.cursor) :
    (program.relabel rename).readsAt machine = program.readsAt machine := by
  rw [readsAt, readsAt, relabel, aligned.at?_relabel]
  cases at? program.tokens machine.cursor with
  | none => rfl
  | some instruction => cases instruction <;> rfl

variable {σ : Type} [Host σ]

theorem turn_relabel (apart : Set.InjOn rename (labelNames tokens))
    (resolved : ofTokens? tokens = some program) (aligned : Aligned tokens machine.cursor)
    (host : σ) : (program.relabel rename).turn machine host = program.turn machine host := by
  obtain ⟨labels, table, rfl⟩ := Option.map_eq_some_iff.1 resolved
  have there := aligned.at?_relabel rename
  cases found : at? tokens machine.cursor with
  | none =>
    rw [found] at there
    simp [turn, relabel, there, found]
  | some instruction =>
    rw [found] at there
    cases instruction with
    | unknown | truncated => simp [turn, relabel, there, found, Instruction.relabel]
    | plain op =>
      have plain : op.namesLabel = false := namesLabel_of_at?_plain found
      have moved : at? (relabel rename ⟨tokens, labels⟩).tokens machine.cursor =
        some (.plain op) := there
      rw [turn_eq moved rfl, turn_eq found rfl]
      exact congrArg _ (perform_relabel_of_plain plain 0 (machine.cursor + 1) machine.abyss)
    | applied op parameter =>
      have leads (names : op.namesLabel = true) :
          (labels.relabel rename).goto (rename parameter) (machine.cursor + 2) =
            labels.goto parameter (machine.cursor + 2) := by
        apply Labels.goto_relabel apart (Labels.within_of_ofTokens? table)
        exact ⟨_, aligned.exists_placed found, if_pos names⟩
      have moved : at? (relabel rename ⟨tokens, labels⟩).tokens machine.cursor =
        some (.applied op (if op.namesLabel then rename parameter else parameter)) := there
      rw [turn_eq moved rfl, turn_eq found rfl]
      exact congrArg _ (perform_relabel leads machine.abyss)

theorem agrees_relabel (apart : Set.InjOn rename (labelNames tokens))
    (resolved : ofTokens? tokens = some program) (aligned : Aligned tokens machine.cursor) :
    program.Agrees σ (program.relabel rename) machine := by
  have own : program.tokens = tokens := by
    obtain ⟨labels, -, rfl⟩ := Option.map_eq_some_iff.1 resolved
    rfl
  constructor
  · intro last reaches
    have there := aligned_of_reaches resolved aligned reaches
    exact readsAt_relabel (own ▸ there)
  · intro last host reaches
    exact turn_relabel apart resolved (aligned_of_reaches resolved aligned reaches) host

end Program

namespace Interpreter

variable {rename : Token → Token} {tokens : List Token}

theorem prepare_relabel {σ : Type} (apart : Set.InjOn rename (labelNames tokens))
    (i : Interpreter σ) :
    i.prepare (relabel rename tokens) =
      (i.prepare tokens).map (Job.mapProgram (Program.relabel rename)) := by
  rw [prepare, prepare, Program.ofTokens?_relabel apart]
  cases Program.ofTokens? tokens <;> rfl

variable {σ : Type} [Host σ]

/-- Labels are only names. Whatever a map makes of the labels of a stream, as long as it tells them
apart, the stream runs as before: to the same report, with the same reads and their answers, and
with the same host and steps after it. If the run has to wait, it waits at the same machine, and it
goes on from there as before. -/
theorem runTokens_relabel (apart : Set.InjOn rename (labelNames tokens)) (i : Interpreter σ) :
    ((i.runTokens tokens).1.waits = false →
      i.runTokens (relabel rename tokens) = i.runTokens tokens) ∧
    i.runTokens (relabel rename tokens) =
      ((i.runTokens tokens).1.mapProgram (Program.relabel rename), (i.runTokens tokens).2) ∧
    i.answersOf (relabel rename tokens) = i.answersOf tokens ∧
    ∀ job later (host : σ), i.prepare tokens = .ok job → job.Resumes σ later →
      advance (later.mapProgram (Program.relabel rename)) host =
        ((advance later host).1.mapProgram (Program.relabel rename), (advance later host).2) ∧
      (later.mapProgram (Program.relabel rename)).answers host = later.answers host := by
  have agrees {job later : Job} (prepared : i.prepare tokens = .ok job)
      (resumes : job.Resumes σ later) :
      later.program.Agrees σ (later.program.relabel rename) later.machine := by
    obtain ⟨resolved, front, -⟩ := prepare_eq_ok prepared
    obtain ⟨same, reaches⟩ := resumes.reaches
    have start : Aligned tokens job.machine.cursor := front ▸ aligned_zero tokens
    rw [same]
    exact Program.agrees_relabel apart resolved (aligned_of_reaches resolved start reaches)
  have runs : i.runTokens (relabel rename tokens) =
        ((i.runTokens tokens).1.mapProgram (Program.relabel rename), (i.runTokens tokens).2) ∧
      i.answersOf (relabel rename tokens) = i.answersOf tokens := by
    rw [runTokens, runTokens, answersOf, answersOf, prepare_relabel apart]
    cases prepared : i.prepare tokens with
    | error failure => exact ⟨rfl, rfl⟩
    | ok job =>
      have first := agrees prepared .refl
      exact ⟨advance_mapProgram first i.host, answers_mapProgram first i.host⟩
  refine ⟨?_, runs.1, runs.2, ?_⟩
  · intro goes
    rw [runs.1, Report.mapProgram_of_goes goes]
  · intro job later host prepared resumes
    have further := agrees prepared resumes
    exact ⟨advance_mapProgram further host, answers_mapProgram further host⟩

/-- A label with two definitions and one with none change their names, and a parameter that looks
like a label does not. -/
theorem runTokens_relabel_twice_defined :
    Set.InjOn (10 - ·) (labelNames [17, 1, 16, 1, 31, 16, 1, 4, 17, 9, 5, 1, 2, 2]) ∧
    relabel (10 - ·) [17, 1, 16, 1, 31, 16, 1, 4, 17, 9, 5, 1, 2, 2] =
      [17, 9, 16, 9, 31, 16, 9, 4, 17, 1, 5, 1, 2, 2] ∧
    (new (Buffer.ofLines ["7"])).runTokens [17, 9, 16, 9, 31, 16, 9, 4, 17, 1, 5, 1, 2, 2] =
      (new (Buffer.ofLines ["7"])).runTokens [17, 1, 16, 1, 31, 16, 1, 4, 17, 9, 5, 1, 2, 2] ∧
    ((new (Buffer.ofLines ["7"])).runTokens
      [17, 1, 16, 1, 31, 16, 1, 4, 17, 9, 5, 1, 2, 2]).2.host.writes = ["7", "1"] := by
  have apart : Set.InjOn (10 - ·) (labelNames [17, 1, 16, 1, 31, 16, 1, 4, 17, 9, 5, 1, 2, 2]) := by
    intro first _ second _ same
    exact (Int.sub_right_inj 10).1 same
  have renamed : relabel (10 - ·) [17, 1, 16, 1, 31, 16, 1, 4, 17, 9, 5, 1, 2, 2] =
      [17, 9, 16, 9, 31, 16, 9, 4, 17, 1, 5, 1, 2, 2] := by
    decide
  have goes : ((new (Buffer.ofLines ["7"])).runTokens
      [17, 1, 16, 1, 31, 16, 1, 4, 17, 9, 5, 1, 2, 2]).1.waits = false := by
    decide +kernel
  refine ⟨apart, renamed, ?_, by decide +kernel⟩
  rw [← renamed]
  exact (runTokens_relabel apart (new (Buffer.ofLines ["7"]))).1 goes

end Interpreter

end AwaLang
