import AwaLang.Proofs.Instruction.Padding
import AwaLang.Proofs.Machine.Alignment
import AwaLang.Proofs.Machine.Budget
import AwaLang.Proofs.Machine.Simulation

namespace AwaLang

open Instruction

theorem drop_goto {tokens : List Token} {labels : Labels}
    (resolved : Labels.ofTokens? tokens = some labels) (label : Token) (next : Nat) :
    tokens.drop (labels.goto label next) =
      (Labels.behind? tokens label).getD (tokens.drop next) := by
  rw [goto_eq resolved, Labels.behind?]
  cases Labels.lastDefinition? tokens label <;> rfl

namespace Padded

variable {tokens padded : List Token}

theorem beside_goto (pads : Padded tokens padded) {labels table : Labels}
    (resolved : Labels.ofTokens? tokens = some labels)
    (again : Labels.ofTokens? padded = some table) {next place : Nat}
    (on : Beside tokens padded next place) (label : Token) :
    Beside tokens padded (labels.goto label next) (table.goto label place) := by
  have leads := pads.behind? label
  rw [Beside, drop_goto resolved, drop_goto again]
  generalize Labels.behind? tokens label = behind at leads ⊢
  generalize Labels.behind? padded label = other at leads ⊢
  cases leads with
  | none => exact on
  | some further => exact further

theorem ofTokens?_eq_none_iff (pads : Padded tokens padded) :
    Program.ofTokens? padded = none ↔ Program.ofTokens? tokens = none := by
  have cut := pads.any_truncated .lbl 0 0
  rw [Program.ofTokens?, Program.ofTokens?, Option.map_eq_none_iff, Option.map_eq_none_iff,
    Labels.ofTokens?, Labels.ofTokens?, ofTokens, ofTokens, cut]
  split <;> simp

variable {σ : Type} [Host σ]

theorem simulates (pads : Padded tokens padded) {program other : Program}
    (resolved : Program.ofTokens? tokens = some program)
    (again : Program.ofTokens? padded = some other) :
    program.Simulates σ (Beside tokens padded) other := by
  obtain ⟨labels, table, rfl⟩ := Option.map_eq_some_iff.1 resolved
  obtain ⟨names, second, rfl⟩ := Option.map_eq_some_iff.1 again
  rintro ⟨⟨cursor, abyss⟩, calls⟩ ⟨⟨place, held⟩, others⟩ host ⟨beside, same⟩
  dsimp only at beside same
  rcases beside.next with ⟨here, there⟩ | ⟨there, on⟩ | ⟨first, here, there, on⟩
  · left
    simp only [Program.turn, Program.readsAt, here, there]
    exact ⟨.ended, trivial⟩
  · -- An idle instruction: the other program goes on alone.
    right
    refine ⟨others.push (.instruction .nop place), ⟨⟨place + 1, held⟩, others⟩, ?_, ⟨on, same⟩, ?_⟩
    · rw [Program.turn_eq there rfl, Program.perform, Turn.ofEffect, Machine.enter]
      simp [Instruction.length]
    · simp [Program.readsAt, there, operation?, Opcode.reads]
  · left
    refine ⟨?_, by simp only [Program.readsAt, here, there]⟩
    cases performs : first.operation? with
    | none =>
      simp only [Program.turn, here, there]
      cases first with
      | plain | applied => contradiction
      | truncated | unknown => exact .failed _ _ _ same host
    | some operation =>
      have ended : Beside tokens padded tokens.length padded.length := by
        simpa [Beside] using Padded.nil
      have leads := pads.beside_goto table second on operation.2
      have effects := @Program.matches_perform _ ⟨tokens, labels⟩ ⟨padded, names⟩ operation.1
        operation.2 _ _ on ended leads abyss
      rw [Program.turn_eq here performs, Program.turn_eq there performs]
      subst same
      apply Turn.matches_ofEffect effects
      rfl

end Padded

structure Job.Pads (job other : Job) : Prop where
  streams : Padded job.program.tokens other.program.tokens
  resolved : Program.ofTokens? job.program.tokens = some job.program
  again : Program.ofTokens? other.program.tokens = some other.program
  place : job.machine.Matches (Padded.Beside job.program.tokens other.program.tokens)
    other.machine.toState
  fewer : other.spare ≤ job.spare

inductive Report.Alike : Report → Report → Prop
  | finished (result : Bubble) : Alike (.finished result) (.finished result)
  | failed (cause : Cause) (frames others : List Frame) :
      Alike (.failed ⟨cause, frames⟩) (.failed ⟨cause, others⟩)
  | waiting {job other : Job} (pads : job.Pads other) : Alike (.waiting job) (.waiting other)

variable {σ : Type}

structure Interpreter.Alike (own other : Report × Interpreter σ) : Prop where
  report : own.1.Alike other.1
  host : own.2.host = other.2.host
  abyss : own.2.abyss = other.2.abyss
  steps : own.2.steps ≤ other.2.steps

namespace Interpreter

theorem prepare_padded {σ : Type} {tokens padded : List Token} (pads : Padded tokens padded)
    (i : Interpreter σ) :
    (∃ cause frames, i.prepare tokens = .error ⟨cause, frames⟩ ∧
      i.prepare padded = .error ⟨cause, frames⟩) ∨
    ∃ job other, i.prepare tokens = .ok job ∧ i.prepare padded = .ok other ∧ job.Pads other := by
  rw [prepare, prepare]
  cases resolved : Program.ofTokens? tokens with
  | none =>
    rw [pads.ofTokens?_eq_none_iff.2 resolved]
    exact .inl ⟨_, _, rfl, rfl⟩
  | some program =>
    cases again : Program.ofTokens? padded with
    | none =>
      rw [pads.ofTokens?_eq_none_iff.1 again] at resolved
      contradiction
    | some other =>
      obtain ⟨labels, -, rfl⟩ := Option.map_eq_some_iff.1 resolved
      obtain ⟨names, -, rfl⟩ := Option.map_eq_some_iff.1 again
      exact .inr ⟨_, _, rfl, rfl, pads, resolved, again, ⟨pads, rfl⟩, Nat.le_refl _⟩

variable [Host σ]

theorem lasts_of_not_exceeds {job : Job} {host : σ} (lasts : ¬ (advance job host).1.Exceeds) :
    (job.program.execute job.spare job.machine host).outcome.Lasts := by
  intro frames exceeded
  apply lasts
  refine ⟨frames, ?_⟩
  rw [advance, exceeded]

theorem advance_alike {job other : Job} (pads : job.Pads other) (host : σ)
    (lasts : ¬ (advance other host).1.Exceeds) :
    Alike (advance job host) (advance other host) ∧ job.answers host = other.answers host := by
  have simulates := pads.streams.simulates (σ := σ) pads.resolved pads.again
  obtain ⟨stop, answers⟩ :=
    simulates.execute pads.place pads.fewer host (lasts_of_not_exceeds lasts)
  refine ⟨?_, answers⟩
  have outcome := stop.outcome
  rw [advance, advance]
  generalize (job.program.execute job.spare job.machine host).outcome = first at outcome ⊢
  generalize (other.program.execute other.spare other.machine host).outcome = second at outcome ⊢
  cases outcome with
  | ended => exact ⟨stop.abyss ▸ .finished _, stop.host, rfl, stop.steps⟩
  | failed cause calls others =>
    exact ⟨.failed cause calls.frames others.frames, stop.host, rfl, stop.steps⟩
  | waiting place fewer =>
    refine ⟨.waiting ?_, stop.host, rfl, stop.steps⟩
    exact ⟨pads.streams, pads.resolved, pads.again, place, fewer⟩

/-- Programs can be moved. Whatever idle instructions are put in front of the instructions of a
stream, if its run does not use up the budget then the stream runs without them to the same report,
but for the addresses that a failure tells, with the same reads, answers and texts, and in as many
steps or fewer. If the run has to wait, this holds again when it is taken up. -/
theorem runTokens_padded {tokens padded : List Token} (pads : Padded tokens padded)
    (i : Interpreter σ) (lasts : ¬ (i.runTokens padded).1.Exceeds) :
    (Alike (i.runTokens tokens) (i.runTokens padded) ∧
      i.answersOf tokens = i.answersOf padded) ∧
    ∀ (job other : Job) (host : σ), job.Pads other → ¬ (advance other host).1.Exceeds →
      Alike (advance job host) (advance other host) ∧ job.answers host = other.answers host := by
  refine ⟨?_, fun job other host beside lasts => advance_alike beside host lasts⟩
  rw [runTokens] at lasts
  rw [runTokens, runTokens, answersOf, answersOf]
  rcases i.prepare_padded pads with ⟨cause, frames, own, again⟩ | ⟨job, other, own, again, beside⟩
  · rw [own, again]
    exact ⟨⟨.failed cause frames frames, rfl, rfl, Nat.le_refl _⟩, rfl⟩
  · rw [again] at lasts
    rw [own, again]
    exact advance_alike beside i.host lasts

/-- Idle instructions move every label of a stream that reads in a loop, prints what it has read,
and ends in a token that names no operation. -/
theorem runTokens_padded_moved_labels :
    Padded [16, 1, 4, 21, 2, 2, 17, 1, 16, 2, 23]
      [0, 16, 1, 32, 0, 4, 21, 2, 0, 2, 17, 1, 0, 16, 2, -32, 23] ∧
    ¬ ((new (Buffer.ofLines ["7", "0"])).runTokens
      [0, 16, 1, 32, 0, 4, 21, 2, 0, 2, 17, 1, 0, 16, 2, -32, 23]).1.Exceeds ∧
    ((new (Buffer.ofLines ["7", "0"])).runTokens [16, 1, 4, 21, 2, 2, 17, 1, 16, 2, 23]).2.host =
      ⟨["7", "0"], [], ["7"]⟩ ∧
    ((new (Buffer.ofLines ["7", "0"])).runTokens
      [16, 1, 4, 21, 2, 2, 17, 1, 16, 2, 23]).2.steps ≤ 14 := by
  have pads : Padded [16, 1, 4, 21, 2, 2, 17, 1, 16, 2, 23]
      [0, 16, 1, 32, 0, 4, 21, 2, 0, 2, 17, 1, 0, 16, 2, -32, 23] := by
    refine .idle (by decide) (by decide) ?_
    refine @Padded.instruction _ _ (.applied .lbl 1) (by decide) ?_
    refine .idle (by decide) (by decide) ?_
    refine .idle (by decide) (by decide) ?_
    refine @Padded.instruction _ _ (.plain .r3d) (by decide) ?_
    refine @Padded.instruction _ _ (.applied .eqz 2) (by decide) ?_
    refine .idle (by decide) (by decide) ?_
    refine @Padded.instruction _ _ (.plain .pr1) (by decide) ?_
    refine @Padded.instruction _ _ (.applied .jmp 1) (by decide) ?_
    refine .idle (by decide) (by decide) ?_
    refine @Padded.instruction _ _ (.applied .lbl 2) (by decide) ?_
    refine .idle (by decide) (by decide) ?_
    exact @Padded.instruction _ _ (.unknown 23) (by decide) .nil
  have report : ((new (Buffer.ofLines ["7", "0"])).runTokens
      [0, 16, 1, 32, 0, 4, 21, 2, 0, 2, 17, 1, 0, 16, 2, -32, 23]).1 =
        .failed ⟨.invalidOpcode ['2', '3'], [.run]⟩ := by
    decide +kernel
  have lasts : ¬ ((new (Buffer.ofLines ["7", "0"])).runTokens
      [0, 16, 1, 32, 0, 4, 21, 2, 0, 2, 17, 1, 0, 16, 2, -32, 23]).1.Exceeds := by
    rw [report]
    rintro ⟨frames, exceeded⟩
    simp at exceeded
  have alike := (runTokens_padded pads (new (Buffer.ofLines ["7", "0"])) lasts).1.1
  have host : ((new (Buffer.ofLines ["7", "0"])).runTokens
      [0, 16, 1, 32, 0, 4, 21, 2, 0, 2, 17, 1, 0, 16, 2, -32, 23]).2.host =
        ⟨["7", "0"], [], ["7"]⟩ := by
    decide +kernel
  have steps : ((new (Buffer.ofLines ["7", "0"])).runTokens
      [0, 16, 1, 32, 0, 4, 21, 2, 0, 2, 17, 1, 0, 16, 2, -32, 23]).2.steps = 14 := by
    decide +kernel
  exact ⟨pads, lasts, alike.host.trans host, steps ▸ alike.steps⟩

end Interpreter

end AwaLang
