import AwaLang.Host.Buffer
import AwaLang.Proofs.Instruction.Residues
import AwaLang.Proofs.Machine.Alignment
import AwaLang.Proofs.Machine.Congruence

namespace AwaLang

open Instruction

theorem Congruent.map_at?_eq_of_aligned {tokens other : List Token} {index : Nat}
    (congruent : Congruent tokens other) (aligned : Aligned tokens index) :
    (at? tokens index).map residue = (at? other index).map residue := by
  rcases aligned with ended | ⟨placed, member, rfl⟩
  · have past : other.length ≤ index := congruent.length ▸ ended
    rw [at?, at?, List.getElem?_eq_none ended, List.getElem?_eq_none past]
    rfl
  · have place : placed.address ∈ operationIndices tokens := by
      rw [← addresses_ofTokens]
      exact List.mem_map_of_mem member
    exact congruent.map_at?_eq (mem_operationIndices.1 place).2

namespace Program

def withTokens (other : List Token) (program : Program) : Program :=
  { program with tokens := other }

variable {program : Program} {other tokens : List Token} {machine : Machine}

/-- An operation asks of the stream only where it ends. -/
theorem perform_withTokens (length : program.tokens.length = other.length) (op : Opcode)
    (parameter : Token) (next : Nat) (abyss : Abyss) :
    (program.withTokens other).perform op parameter next abyss =
      program.perform op parameter next abyss := by
  cases op with
  | trm => rw [perform, perform, withTokens, length]
  | _ => rfl

theorem at?_withTokens (congruent : Congruent program.tokens other)
    (aligned : Aligned program.tokens machine.cursor) :
    at? other machine.cursor = at? program.tokens machine.cursor ∨
      ∃ token second, at? program.tokens machine.cursor = some (.unknown token) ∧
        at? other machine.cursor = some (.unknown second) ∧ token % 32 = second % 32 := by
  have same := congruent.map_at?_eq_of_aligned aligned
  cases found : at? program.tokens machine.cursor with
  | none =>
    rw [found, Option.map_none, eq_comm, Option.map_eq_none_iff] at same
    exact .inl same
  | some instruction =>
    rw [found, Option.map_some, eq_comm, Option.map_eq_some_iff] at same
    obtain ⟨second, there, same⟩ := same
    rcases eq_or_unknown_of_residue_eq same with rfl | ⟨token, own, rfl, rfl, congruent⟩
    · exact .inl there
    · exact .inr ⟨own, token, rfl, there, congruent.symm⟩

theorem readsAt_withTokens (congruent : Congruent program.tokens other)
    (aligned : Aligned program.tokens machine.cursor) :
    (program.withTokens other).readsAt machine = program.readsAt machine := by
  rw [readsAt, readsAt, withTokens]
  rcases at?_withTokens congruent aligned with same | ⟨token, second, here, there, -⟩
  · rw [same]
  · rw [here, there]
    rfl

variable {σ : Type} [Host σ]

theorem turn_withTokens (congruent : Congruent program.tokens other)
    (aligned : Aligned program.tokens machine.cursor) (host : σ) :
    (program.withTokens other).turn machine host = program.turn machine host := by
  rcases at?_withTokens congruent aligned with same | ⟨token, second, here, there, residues⟩
  · have there : at? (program.withTokens other).tokens machine.cursor =
        at? program.tokens machine.cursor := same
    simp only [turn, there, perform_withTokens congruent.length]
  · have names : Opcode.nameOf second = Opcode.nameOf token := by
      rw [← Opcode.nameOf_emod, ← residues, Opcode.nameOf_emod]
    simp only [turn, withTokens, here, there, names]

theorem agrees_withTokens (congruent : Congruent tokens other)
    (resolved : ofTokens? tokens = some program) (aligned : Aligned tokens machine.cursor) :
    program.Agrees σ (program.withTokens other) machine := by
  have own : program.tokens = tokens := by
    obtain ⟨labels, -, rfl⟩ := Option.map_eq_some_iff.1 resolved
    rfl
  subst own
  constructor
  · intro last reaches
    exact readsAt_withTokens congruent (aligned_of_reaches resolved aligned reaches)
  · intro last host reaches
    exact turn_withTokens congruent (aligned_of_reaches resolved aligned reaches) host

end Program

namespace Interpreter

variable {tokens other : List Token}

theorem prepare_withTokens {σ : Type} (congruent : Congruent tokens other) (i : Interpreter σ) :
    i.prepare other = (i.prepare tokens).map (Job.mapProgram (Program.withTokens other)) := by
  rw [prepare, prepare, Program.ofTokens?, Program.ofTokens?, ← congruent.labels_eq]
  cases Labels.ofTokens? tokens <;> rfl

variable {σ : Type} [Host σ]

/-- Operations matter only modulo 32. Streams with the same parameters, and with operations that are
congruent, have the same labels and the same listing, and they run alike on every host: to the same
report, with the same reads and their answers, and with the same host and steps after it. If the run
of one has to wait, that of the other waits at the same machine, and it goes on from there alike. -/
theorem runTokens_congruent (congruent : Congruent tokens other) (i : Interpreter σ) :
    Labels.ofTokens? other = Labels.ofTokens? tokens ∧
    Listing.render other = Listing.render tokens ∧
    ((i.runTokens tokens).1.waits = false → i.runTokens other = i.runTokens tokens) ∧
    i.runTokens other =
      ((i.runTokens tokens).1.mapProgram (Program.withTokens other), (i.runTokens tokens).2) ∧
    i.answersOf other = i.answersOf tokens ∧
    ∀ job later (host : σ), i.prepare tokens = .ok job → job.Resumes σ later →
      advance (later.mapProgram (Program.withTokens other)) host =
        ((advance later host).1.mapProgram (Program.withTokens other), (advance later host).2) ∧
      (later.mapProgram (Program.withTokens other)).answers host = later.answers host := by
  refine ⟨congruent.labels_eq.symm, congruent.render_eq.symm, ?_⟩
  apply runs_mapProgram (prepare_withTokens congruent i)
  intro job prepared
  obtain ⟨resolved, front, -⟩ := prepare_eq_ok prepared
  have start : Aligned tokens job.machine.cursor := front ▸ aligned_zero tokens
  exact Program.agrees_withTokens congruent resolved start

theorem runTokens_congruent_negative :
    Congruent [17, 1, 16, 1, 5, 7, 2, 22] [-15, 1, 48, 1, 37, 7, -30, -10] ∧
    Listing.render [-15, 1, 48, 1, 37, 7, -30, -10] =
      Listing.render [17, 1, 16, 1, 5, 7, 2, 22] ∧
    (new (Buffer.ofLines [])).runTokens [-15, 1, 48, 1, 37, 7, -30, -10] =
      (new (Buffer.ofLines [])).runTokens [17, 1, 16, 1, 5, 7, 2, 22] ∧
    ((new (Buffer.ofLines [])).runTokens [17, 1, 16, 1, 5, 7, 2, 22]).1 =
      .failed ⟨.invalidOpcode ['2', '2'], [.run]⟩ := by
  have congruent :
      Congruent [17, 1, 16, 1, 5, 7, 2, 22] [-15, 1, 48, 1, 37, 7, -30, -10] := by
    decide +kernel
  have failed : ((new (Buffer.ofLines [])).runTokens [17, 1, 16, 1, 5, 7, 2, 22]).1 =
      .failed ⟨.invalidOpcode ['2', '2'], [.run]⟩ := by
    decide +kernel
  obtain ⟨-, listed, runs, -⟩ := runTokens_congruent congruent (new (Buffer.ofLines []))
  refine ⟨congruent, listed, runs ?_, failed⟩
  rw [failed]
  rfl

end Interpreter

end AwaLang
