import AwaLang.Host.Buffer
import AwaLang.Proofs.Machine.Runs

/-!
The budget of a run. The loop without a budget is told by how far it gets in a number of
instructions, and by how it stops if it gets no further. A run does what that loop does for as long
as the budget lasts.
-/

namespace AwaLang

inductive Finish
  | ended (machine : Machine)
  | failed (failure : Failure) (left : Machine)
  | waiting (calls : CallStack) (machine : Machine)
  deriving DecidableEq, Repr

namespace Finish

def machine : Finish → Machine
  | ended machine => machine
  | failed _ left => left
  | waiting _ machine => machine

def calls : Finish → CallStack
  | waiting calls _ => calls
  | finish => finish.machine.calls

def outcome (spare : Nat) : Finish → Program.Outcome
  | ended _ => .ended
  | failed failure _ => .failed failure
  | waiting _ machine => .waiting machine spare

def report (program : Program) (spare : Nat) : Finish → Report
  | ended machine => .finished (Interpreter.resultOf machine.abyss)
  | failed failure _ => .failed failure
  | waiting _ machine => .waiting ⟨program, machine, spare⟩

def stop {σ : Type} (spare : Nat) (host : σ) (finish : Finish) : Program.Stop σ :=
  ⟨finish.outcome spare, finish.machine.abyss, finish.calls, Program.limit - 1 - spare, host⟩

end Finish

variable {σ : Type} [Host σ]

def Turn.finish? (machine : Machine) (host : σ) : Turn σ → Option (Finish × σ)
  | ended => some (.ended machine, host)
  | failed failure left host => some (.failed failure left, host)
  | waiting calls host => some (.waiting calls machine, host)
  | done _ _ _ => none

namespace Program

/-- The loop without a budget stops after exactly this many instructions. -/
def Halts (program : Program) (machine : Machine) (host : σ) (count : Nat) (finish : Finish)
    (after : σ) : Prop :=
  ∃ last between, program.progress count machine host = some (last, between) ∧
    (program.turn last between).finish? last between = some (finish, after)

theorem progress_or_halts (program : Program) (count : Nat) (machine : Machine) (host : σ) :
    (∃ last after, program.progress count machine host = some (last, after)) ∨
    ∃ before finish after, before < count ∧ program.Halts machine host before finish after := by
  induction count generalizing machine host with
  | zero => exact .inl ⟨machine, host, rfl⟩
  | succ count ih =>
    cases stops : (program.turn machine host).finish? machine host with
    | some stop =>
      obtain ⟨finish, after⟩ := stop
      exact .inr ⟨0, finish, after, Nat.succ_pos count, machine, host, rfl, stops⟩
    | none =>
      cases turn : program.turn machine host with
      | ended | failed | waiting =>
        rw [turn] at stops
        contradiction
      | done calls next between =>
        rcases ih next between with ⟨last, after, going⟩ | ⟨before, finish, after, early, halts⟩
        · exact .inl ⟨last, after, (progress_succ turn count).trans going⟩
        · obtain ⟨last, place, going, stops⟩ := halts
          have whole := (progress_succ turn before).trans going
          exact .inr ⟨before + 1, finish, after, Nat.succ_lt_succ early, last, place, whole, stops⟩

theorem execute_of_halts {program : Program} {spare count : Nat} {machine : Machine}
    {host after : σ} {finish : Finish} (halts : program.Halts machine host count finish after)
    (lasts : count ≤ spare) :
    program.execute spare machine host = finish.stop (spare - count) after := by
  obtain ⟨last, between, going, stops⟩ := halts
  induction count generalizing spare machine host with
  | zero =>
    rw [progress, Option.some.injEq, Prod.mk.injEq] at going
    obtain ⟨rfl, rfl⟩ := going
    cases turn : program.turn machine host with
    | ended | failed | waiting =>
      rw [turn, Turn.finish?, Option.some.injEq, Prod.mk.injEq] at stops
      obtain ⟨rfl, rfl⟩ := stops
      rw [execute, turn]
      rfl
    | done =>
      rw [turn] at stops
      contradiction
  | succ count ih =>
    obtain ⟨calls, next, first, done, rest⟩ := exists_done_of_progress_succ going
    cases spare with
    | zero => exact absurd lasts (Nat.not_succ_le_zero count)
    | succ spare =>
      have later := ih (Nat.le_of_succ_le_succ lasts) rest
      rw [execute, done, Nat.succ_sub_succ]
      exact later

theorem execute_of_progress {program : Program} {spare : Nat} {machine last : Machine}
    {host after : σ} (going : program.progress (spare + 1) machine host = some (last, after)) :
    ∃ calls, program.execute spare machine host =
      ⟨.failed (calls.failure (.limitExceeded limit)), last.abyss, calls, limit, after⟩ := by
  induction spare generalizing machine host with
  | zero =>
    obtain ⟨calls, next, between, done, rest⟩ := exists_done_of_progress_succ going
    rw [progress, Option.some.injEq, Prod.mk.injEq] at rest
    obtain ⟨rfl, rfl⟩ := rest
    refine ⟨calls, ?_⟩
    rw [execute, done]
  | succ spare ih =>
    obtain ⟨calls, next, between, done, rest⟩ := exists_done_of_progress_succ going
    obtain ⟨final, later⟩ := ih rest
    refine ⟨final, ?_⟩
    rw [execute, done]
    exact later

theorem progress_eq_none_of_halts {program : Program} {before count : Nat} {machine : Machine}
    {host after : σ} {finish : Finish} (halts : program.Halts machine host before finish after)
    (early : before < count) : program.progress count machine host = none := by
  obtain ⟨last, between, going, stops⟩ := halts
  induction count generalizing before machine host with
  | zero => contradiction
  | succ count ih =>
    cases before with
    | zero =>
      rw [progress, Option.some.injEq, Prod.mk.injEq] at going
      obtain ⟨rfl, rfl⟩ := going
      rw [progress]
      split
      · rename_i done
        rw [done] at stops
        contradiction
      · rfl
    | succ before =>
      obtain ⟨calls, next, first, done, rest⟩ := exists_done_of_progress_succ going
      rw [progress_succ done]
      exact ih (Nat.lt_of_succ_lt_succ early) rest

theorem Halts.cause_ne_limitExceeded {program : Program} {count : Nat} {machine : Machine}
    {host after : σ} {failure : Failure} {left : Machine}
    (halts : program.Halts machine host count (.failed failure left) after) (limit : Nat) :
    failure.cause ≠ .limitExceeded limit := by
  obtain ⟨last, between, -, stops⟩ := halts
  cases turn : program.turn last between with
  | ended | waiting | done => simp [turn, Turn.finish?] at stops
  | failed own left place =>
    rw [turn, Turn.finish?, Option.some.injEq, Prod.mk.injEq, Finish.failed.injEq] at stops
    rw [← stops.1.1]
    exact Program.cause_ne_limitExceeded turn limit

end Program

def Report.Exceeds (report : Report) : Prop :=
  ∃ frames, report = .failed ⟨.limitExceeded Program.limit, frames⟩

/-- What a run comes to, told by the loop without a budget, from a job on that has already spent a
part of the budget. Reads and writes are in the host. -/
structure Truncates (job : Job) (spent : Nat) (host : σ) (report : Report)
    (after : Interpreter σ) : Prop where
  steps_le : after.steps ≤ Program.limit
  exceeds_iff : report.Exceeds ↔
    (job.program.progress (Program.limit - spent) job.machine host).isSome
  exceeded : ∀ last place,
    job.program.progress (Program.limit - spent) job.machine host = some (last, place) →
    after.host = place ∧ after.steps = Program.limit
  halted : job.program.progress (Program.limit - spent) job.machine host = none →
    ∃ count finish, job.program.Halts job.machine host count finish after.host ∧
      spent + count < Program.limit ∧ after.steps = spent + count ∧
      report = finish.report job.program (Program.limit - 1 - after.steps)

namespace Interpreter

theorem advance_of_progress {job : Job} {last : Machine} {host after : σ}
    (going : job.program.progress (job.spare + 1) job.machine host = some (last, after)) :
    ∃ calls, advance job host =
      (.failed (calls.failure (.limitExceeded Program.limit)),
        ⟨after, .empty, calls, Program.limit⟩) := by
  obtain ⟨calls, stop⟩ := Program.execute_of_progress going
  refine ⟨calls, ?_⟩
  rw [advance, stop]

theorem advance_of_halts {job : Job} {count : Nat} {host after : σ} {finish : Finish}
    (halts : job.program.Halts job.machine host count finish after) (lasts : count ≤ job.spare) :
    advance job host =
      (finish.report job.program (job.spare - count),
        ⟨after, .empty, (finish.stop (job.spare - count) after).callsAfter,
          Program.limit - 1 - (job.spare - count)⟩) := by
  rw [advance, Program.execute_of_halts halts lasts]
  cases finish <;> rfl

theorem truncates_of_progress {job : Job} {spent : Nat} {last : Machine} {host after : σ}
    (budget : job.spare + spent + 1 = Program.limit)
    (going : job.program.progress (job.spare + 1) job.machine host = some (last, after)) :
    Truncates job spent host (advance job host).1 (advance job host).2 := by
  have left : Program.limit - spent = job.spare + 1 := by omega
  obtain ⟨calls, outcome⟩ := advance_of_progress going
  rw [outcome]
  constructor
  · exact Nat.le_refl Program.limit
  · rw [left, going]
    exact ⟨fun _ => rfl, fun _ => ⟨calls.frames, rfl⟩⟩
  · intro final place reached
    rw [left, going, Option.some.injEq, Prod.mk.injEq] at reached
    exact ⟨reached.2, rfl⟩
  · intro stopped
    rw [left, going] at stopped
    contradiction

theorem truncates_of_halts {job : Job} {spent count : Nat} {host after : σ} {finish : Finish}
    (budget : job.spare + spent + 1 = Program.limit)
    (halts : job.program.Halts job.machine host count finish after) (lasts : count ≤ job.spare) :
    Truncates job spent host (advance job host).1 (advance job host).2 := by
  have left : Program.limit - spent = job.spare + 1 := by omega
  have stopped : job.program.progress (Program.limit - spent) job.machine host = none :=
    left ▸ Program.progress_eq_none_of_halts halts (Nat.lt_succ_of_le lasts)
  have steps : Program.limit - 1 - (job.spare - count) = spent + count := by omega
  have spare : job.spare - count = Program.limit - 1 - (spent + count) := by omega
  rw [advance_of_halts halts lasts, steps, spare]
  constructor
  · change spent + count ≤ Program.limit
    omega
  · rw [stopped]
    constructor
    · intro exceeds
      obtain ⟨frames, failed⟩ := exceeds
      cases finish with
      | ended | waiting => contradiction
      | failed failure left =>
        rw [Finish.report, Report.failed.injEq] at failed
        exact absurd (congrArg Failure.cause failed) (halts.cause_ne_limitExceeded Program.limit)
    · intro going
      contradiction
  · intro last place reached
    rw [stopped] at reached
    contradiction
  · intro _
    exact ⟨count, finish, halts, by omega, rfl, rfl⟩

theorem advance_truncates {job : Job} {spent : Nat} (budget : job.spare + spent + 1 = Program.limit)
    (host : σ) : Truncates job spent host (advance job host).1 (advance job host).2 := by
  rcases job.program.progress_or_halts (job.spare + 1) job.machine host with
    ⟨last, after, going⟩ | ⟨count, finish, after, early, halts⟩
  · exact truncates_of_progress budget going
  · exact truncates_of_halts budget halts (Nat.le_of_lt_succ early)

/-- The budget cuts a run off and does nothing else. A run from the front has spent nothing of it;
one that is taken up again has spent the steps it had done. -/
theorem runTokens_truncates (i : Interpreter σ) (tokens : List Token) :
    (∀ failure, i.prepare tokens = .error failure →
      ¬ (Report.failed failure).Exceeds ∧
        i.runTokens tokens = (.failed failure, ⟨i.host, .empty, ⟨[.run, .resolveLabels]⟩, 0⟩)) ∧
    (∀ job, i.prepare tokens = .ok job →
      Truncates job 0 i.host (i.runTokens tokens).1 (i.runTokens tokens).2) ∧
    ∀ (job : Job) (spent : Nat) (host : σ), job.spare + spent + 1 = Program.limit →
      Truncates job spent host (advance job host).1 (advance job host).2 := by
  refine ⟨?_, ?_, ?_⟩
  · intro failure refused
    refine ⟨?_, by rw [runTokens, refused]; rfl⟩
    intro exceeds
    obtain ⟨frames, same⟩ := exceeds
    rw [Report.failed.injEq] at same
    have named := congrArg Failure.cause (same.symm.trans (prepare_eq_error refused).2)
    rw [CallStack.cause_failure] at named
    contradiction
  · intro job prepared
    obtain ⟨-, -, budget⟩ := prepare_eq_ok prepared
    rw [runTokens, prepared]
    exact @advance_truncates σ _ job 0 budget i.host
  · intro job spent host budget
    exact advance_truncates budget host

theorem runTokens_truncates_jump_to_self :
    (Interpreter.new (Buffer.ofLines [])).prepare [16, 1, 17, 1] =
      .ok ⟨⟨[16, 1, 17, 1], ⟨[(1, 1)]⟩⟩, ⟨⟨0, .empty⟩, ⟨[.run]⟩⟩, 9999⟩ ∧
    ((Interpreter.new (Buffer.ofLines [])).runTokens [16, 1, 17, 1]).1.Exceeds ∧
    ((Interpreter.new (Buffer.ofLines [])).runTokens [16, 1, 17, 1]).2.steps = 10000 := by
  have prepared : (Interpreter.new (Buffer.ofLines [])).prepare [16, 1, 17, 1] =
      .ok ⟨⟨[16, 1, 17, 1], ⟨[(1, 1)]⟩⟩, ⟨⟨0, .empty⟩, ⟨[.run]⟩⟩, 9999⟩ := rfl
  have truncates := (runTokens_truncates (Interpreter.new (Buffer.ofLines [])) [16, 1, 17, 1]).2.1 _
    prepared
  have jumps (count : Nat) :
      Program.progress ⟨[16, 1, 17, 1], ⟨[(1, 1)]⟩⟩ count ⟨⟨2, .empty⟩, ⟨[.run]⟩⟩
        (Buffer.ofLines []) = some (⟨⟨2, .empty⟩, ⟨[.run]⟩⟩, Buffer.ofLines []) := by
    induction count with
    | zero => rfl
    | succ count ih => exact ih
  have going : Program.progress ⟨[16, 1, 17, 1], ⟨[(1, 1)]⟩⟩ (Program.limit - 0)
      ⟨⟨0, .empty⟩, ⟨[.run]⟩⟩ (Buffer.ofLines []) =
        some (⟨⟨2, .empty⟩, ⟨[.run]⟩⟩, Buffer.ofLines []) := by
    have whole : Program.limit - 0 = 9999 + 1 := rfl
    rw [whole, Program.progress_succ rfl]
    exact jumps 9999
  have reached := congrArg Option.isSome going
  exact ⟨prepared, truncates.exceeds_iff.2 reached, (truncates.exceeded _ _ going).2⟩

end Interpreter

end AwaLang
