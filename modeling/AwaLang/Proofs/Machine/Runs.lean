import AwaLang.Interpreter
import AwaLang.Proofs.Instruction.Layout
import AwaLang.Proofs.Machine.Effects

/-!
Runs, one turn after another. A turn is a matter of the instruction under the cursor and of what it
yields on its own; a run visits the machines that turns lead to, whatever the host answers and
however often the run waits and is taken up again.
-/

namespace AwaLang

def Instruction.operation? : Instruction → Option (Opcode × Token)
  | plain op => some (op, 0)
  | applied op parameter => some (op, parameter)
  | _ => none

theorem Interpreter.prepare_eq_ok {σ : Type} {i : Interpreter σ} {tokens : List Token} {job : Job}
    (prepared : i.prepare tokens = .ok job) :
    Program.ofTokens? tokens = some job.program ∧ job.machine = i.start ∧
      job.spare + 1 = Program.limit := by
  rw [prepare] at prepared
  split at prepared
  · rename_i program resolved
    rw [Except.ok.injEq] at prepared
    subst prepared
    exact ⟨resolved, rfl, rfl⟩
  · contradiction

theorem Interpreter.prepare_eq_error {σ : Type} {i : Interpreter σ} {tokens : List Token}
    {failure : Failure} (refused : i.prepare tokens = .error failure) :
    Program.ofTokens? tokens = none ∧
      failure = i.resolving.calls.failure (.missingParameter .lbl) := by
  rw [prepare] at refused
  split at refused
  · contradiction
  · rename_i unresolved
    exact ⟨unresolved, (Except.error.inj refused).symm⟩

variable {σ : Type} [Host σ]

theorem Interpreter.outcome_of_advance_finished {job : Job} {result : Bubble} {host : σ}
    (finished : (advance job host).1 = .finished result) :
    (job.program.execute job.spare job.machine host).outcome = .ended ∧
      result = resultOf (job.program.execute job.spare job.machine host).abyss := by
  rw [advance] at finished
  cases outcome : (job.program.execute job.spare job.machine host).outcome with
  | failed | waiting => simp [outcome] at finished
  | ended =>
    simp only [outcome, Report.finished.injEq] at finished
    exact ⟨rfl, finished.symm⟩

theorem Interpreter.outcome_of_advance_failed {job : Job} {failure : Failure} {host : σ}
    (failed : (advance job host).1 = .failed failure) :
    (job.program.execute job.spare job.machine host).outcome = .failed failure := by
  rw [advance] at failed
  cases outcome : (job.program.execute job.spare job.machine host).outcome with
  | ended | waiting => simp [outcome] at failed
  | failed own =>
    simp only [outcome, Report.failed.injEq] at failed
    rw [failed]

theorem Interpreter.outcome_of_advance {job later : Job} {host : σ}
    (waits : (advance job host).1 = .waiting later) :
    later.program = job.program ∧
      (job.program.execute job.spare job.machine host).outcome =
        .waiting later.machine later.spare := by
  rw [advance] at waits
  cases outcome : (job.program.execute job.spare job.machine host).outcome with
  | ended | failed => simp [outcome] at waits
  | waiting machine spare =>
    simp only [outcome, Report.waiting.injEq] at waits
    subst waits
    exact ⟨rfl, rfl⟩

/-- What an effect comes to: it goes on as it yields, or it fails as it raises or as the host does,
or it waits. -/
theorem Turn.ofEffect_cases (machine : Machine) (host : σ) (effect : Effect) :
    (∃ next after, effect.Yields next ∧
      Turn.ofEffect machine host effect = .done machine.calls ⟨next, machine.calls.pop⟩ after) ∨
    (∃ cause abyss after, (effect.Raises cause ∨ ∃ message, cause = .io message) ∧
      Turn.ofEffect machine host effect =
        .failed (machine.calls.failure cause) { machine with abyss := abyss } after) ∨
    ∃ after, Turn.ofEffect machine host effect = .waiting machine.calls after := by
  cases effect with
  | proceed next => exact .inl ⟨next, host, rfl, rfl⟩
  | fail cause abyss => exact .inr (.inl ⟨cause, abyss, host, .inl rfl, rfl⟩)
  | write text next =>
    cases written : Host.write host text with
    | ok after => exact .inl ⟨next, after, rfl, by simp only [ofEffect, written]⟩
    | error message =>
      refine .inr (.inl ⟨.io message, next.abyss, host, .inr ⟨message, rfl⟩, ?_⟩)
      simp only [ofEffect, written]
  | read resume =>
    rcases reading : Host.read host with ⟨answer, after⟩
    cases answer with
    | line text =>
      cases resumed : resume (some text) with
      | ok next =>
        refine .inl ⟨next, after, ⟨some text, resumed⟩, ?_⟩
        simp only [ofEffect, reading, resumed]
      | error cause =>
        refine .inr (.inl ⟨cause, machine.abyss, after, .inl ⟨some text, resumed⟩, ?_⟩)
        simp only [ofEffect, reading, resumed]
    | endOfInput =>
      cases resumed : resume none with
      | ok next =>
        refine .inl ⟨next, after, ⟨none, resumed⟩, ?_⟩
        simp only [ofEffect, reading, resumed]
      | error cause =>
        refine .inr (.inl ⟨cause, machine.abyss, after, .inl ⟨none, resumed⟩, ?_⟩)
        simp only [ofEffect, reading, resumed]
    | notYet =>
      refine .inr (.inr ⟨after, ?_⟩)
      simp only [ofEffect, reading]
    | broken message =>
      refine .inr (.inl ⟨.io message, machine.abyss, after, .inr ⟨message, rfl⟩, ?_⟩)
      simp only [ofEffect, reading]

theorem Turn.yields_of_done {machine next : Machine} {calls : CallStack} {host after : σ}
    {effect : Effect} (turn : Turn.ofEffect machine host effect = .done calls next after) :
    calls = machine.calls ∧ next.calls = machine.calls.pop ∧ effect.Yields next.toState := by
  rcases Turn.ofEffect_cases machine host effect with
    ⟨state, place, yields, same⟩ | ⟨cause, abyss, place, -, same⟩ | ⟨place, same⟩
  · rw [same, Turn.done.injEq] at turn
    obtain ⟨rfl, rfl, -⟩ := turn
    exact ⟨rfl, rfl, yields⟩
  · rw [same] at turn
    contradiction
  · rw [same] at turn
    contradiction

theorem Turn.raises_of_failed {machine left : Machine} {host after : σ} {effect : Effect}
    {failure : Failure} (turn : Turn.ofEffect machine host effect = .failed failure left after) :
    failure = machine.calls.failure failure.cause ∧ left.calls = machine.calls ∧
      (effect.Raises failure.cause ∨ ∃ message, failure.cause = .io message) := by
  rcases Turn.ofEffect_cases machine host effect with
    ⟨state, place, -, same⟩ | ⟨cause, abyss, place, raises, same⟩ | ⟨place, same⟩
  · rw [same] at turn
    contradiction
  · rw [same, Turn.failed.injEq] at turn
    obtain ⟨rfl, rfl, -⟩ := turn
    exact ⟨rfl, rfl, raises⟩
  · rw [same] at turn
    contradiction

namespace Program

theorem turn_eq {program : Program} {machine : Machine} {instruction : Instruction} {op : Opcode}
    {parameter : Token} (found : Instruction.at? program.tokens machine.cursor = some instruction)
    (performs : instruction.operation? = some (op, parameter)) (host : σ) :
    program.turn machine host =
      Turn.ofEffect (machine.enter (.instruction op machine.cursor)) host
        (program.perform op parameter (machine.cursor + instruction.length) machine.abyss) := by
  cases instruction with
  | plain | applied =>
    rw [Instruction.operation?, Option.some.injEq, Prod.mk.injEq] at performs
    obtain ⟨rfl, rfl⟩ := performs
    rw [turn, found]
    rfl
  | truncated | unknown => contradiction

/-- A turn that is done has performed the instruction under the cursor, and it has taken the frame
off again that it put on. -/
theorem yields_of_turn {program : Program} {machine next : Machine} {calls : CallStack}
    {host after : σ} (done : program.turn machine host = .done calls next after) :
    ∃ instruction op parameter,
      Instruction.at? program.tokens machine.cursor = some instruction ∧
      instruction.operation? = some (op, parameter) ∧
      calls = machine.calls.push (.instruction op machine.cursor) ∧ next.calls = machine.calls ∧
      (program.perform op parameter (machine.cursor + instruction.length) machine.abyss).Yields
        next.toState := by
  cases found : Instruction.at? program.tokens machine.cursor with
  | none =>
    rw [turn, found] at done
    contradiction
  | some instruction =>
    cases performs : instruction.operation? with
    | none =>
      rw [turn, found] at done
      cases instruction <;> contradiction
    | some operation =>
      obtain ⟨op, parameter⟩ := operation
      rw [turn_eq found performs] at done
      obtain ⟨rfl, popped, yields⟩ := Turn.yields_of_done done
      rw [Machine.enter, CallStack.pop_push] at popped
      exact ⟨instruction, op, parameter, rfl, performs, rfl, popped, yields⟩

theorem calls_of_turn {program : Program} {machine next : Machine} {calls : CallStack}
    {host after : σ} (done : program.turn machine host = .done calls next after) :
    next.calls = machine.calls := by
  obtain ⟨-, -, -, -, -, -, balanced, -⟩ := yields_of_turn done
  exact balanced

/-- A turn that fails has met a token that names no operation, or it fails in the operation under
the cursor: that operation lacks its parameter, or fails itself, or the host does. -/
theorem failure_of_turn {program : Program} {machine left : Machine} {failure : Failure}
    {host after : σ} (failed : program.turn machine host = .failed failure left after) :
    (∃ token, Instruction.at? program.tokens machine.cursor = some (.unknown token) ∧
      left.calls = machine.calls ∧
      failure = machine.calls.failure (.invalidOpcode (Opcode.nameOf token))) ∨
    (∃ op, Instruction.at? program.tokens machine.cursor = some (.truncated op) ∧
      left.calls = machine.calls.push (.instruction op machine.cursor) ∧
      failure =
        (machine.calls.push (.instruction op machine.cursor)).failure (.missingParameter op)) ∨
    ∃ instruction op parameter,
      Instruction.at? program.tokens machine.cursor = some instruction ∧
      instruction.operation? = some (op, parameter) ∧
      left.calls = machine.calls.push (.instruction op machine.cursor) ∧
      failure = (machine.calls.push (.instruction op machine.cursor)).failure failure.cause ∧
      (failure.cause.Arises op ∨ ∃ message, failure.cause = .io message) := by
  cases found : Instruction.at? program.tokens machine.cursor with
  | none =>
    rw [turn, found] at failed
    contradiction
  | some instruction =>
    cases performs : instruction.operation? with
    | some operation =>
      obtain ⟨op, parameter⟩ := operation
      rw [turn_eq found performs] at failed
      obtain ⟨copied, stands, origin⟩ := Turn.raises_of_failed failed
      refine .inr (.inr ⟨instruction, op, parameter, rfl, performs, stands, copied, ?_⟩)
      rcases origin with raises | broken
      · exact .inl (arises_perform raises)
      · exact .inr broken
    | none =>
      rw [turn, found] at failed
      cases instruction with
      | plain | applied => contradiction
      | unknown token =>
        rw [Turn.failed.injEq] at failed
        obtain ⟨rfl, rfl, -⟩ := failed
        exact .inl ⟨token, rfl, rfl, rfl⟩
      | truncated op =>
        rw [Turn.failed.injEq] at failed
        obtain ⟨rfl, rfl, -⟩ := failed
        exact .inr (.inl ⟨op, rfl, rfl, rfl⟩)

theorem failure_eq_of_turn {program : Program} {machine left : Machine} {failure : Failure}
    {host after : σ} (failed : program.turn machine host = .failed failure left after) :
    failure = left.calls.failure failure.cause := by
  rcases failure_of_turn failed with ⟨token, -, stands, rfl⟩ | ⟨op, -, stands, rfl⟩ |
    ⟨instruction, op, parameter, -, -, stands, copied, -⟩
  · rw [stands, CallStack.cause_failure]
  · rw [stands, CallStack.cause_failure]
  · rw [stands]
    exact copied

theorem cause_ne_limitExceeded {program : Program} {machine left : Machine} {failure : Failure}
    {host after : σ}
    (failed : program.turn machine host = .failed failure left after) (limit : Nat) :
    failure.cause ≠ .limitExceeded limit := by
  intro exceeded
  rcases failure_of_turn failed with ⟨token, -, -, rfl⟩ | ⟨op, -, -, rfl⟩ |
    ⟨instruction, op, parameter, -, -, -, -, arises | ⟨message, broken⟩⟩
  · contradiction
  · contradiction
  · rw [exceeded] at arises
    contradiction
  · rw [exceeded] at broken
    contradiction

def progress (program : Program) : Nat → Machine → σ → Option (Machine × σ)
  | 0, machine, host => some (machine, host)
  | count + 1, machine, host =>
    match program.turn machine host with
    | .done _ next host => progress program count next host
    | _ => none

theorem progress_succ {program : Program} {machine next : Machine} {calls : CallStack}
    {host after : σ} (done : program.turn machine host = .done calls next after) (count : Nat) :
    program.progress (count + 1) machine host = program.progress count next after := by
  rw [progress, done]

theorem exists_done_of_progress_succ {program : Program} {count : Nat} {machine last : Machine}
    {host after : σ} (going : program.progress (count + 1) machine host = some (last, after)) :
    ∃ calls next between, program.turn machine host = .done calls next between ∧
      program.progress count next between = some (last, after) := by
  rw [progress] at going
  split at going
  · rename_i calls next between done
    exact ⟨calls, next, between, done, going⟩
  · contradiction

theorem mem_trail_iff {program : Program} {spare : Nat} {start machine : Machine} {host : σ} :
    machine ∈ program.trail spare start host ↔
      ∃ count after, count ≤ spare ∧ program.progress count start host = some (machine, after) := by
  constructor
  · intro member
    induction spare generalizing start host with
    | zero =>
      rw [trail] at member
      rcases List.mem_cons.1 member with rfl | later
      · exact ⟨0, host, Nat.le_refl 0, rfl⟩
      · split at later <;> exact absurd later List.not_mem_nil
    | succ spare ih =>
      rw [trail] at member
      rcases List.mem_cons.1 member with rfl | later
      · exact ⟨0, host, Nat.zero_le (spare + 1), rfl⟩
      · split at later
        · rename_i calls next between done
          obtain ⟨count, after, within, going⟩ := ih later
          have whole := (progress_succ done count).trans going
          exact ⟨count + 1, after, Nat.succ_le_succ within, whole⟩
        · exact absurd later List.not_mem_nil
  · rintro ⟨count, after, within, going⟩
    induction count generalizing spare start host with
    | zero =>
      rw [progress, Option.some.injEq, Prod.mk.injEq] at going
      rw [trail, going.1]
      exact List.mem_cons_self
    | succ count ih =>
      obtain ⟨calls, next, between, done, rest⟩ := exists_done_of_progress_succ going
      cases spare with
      | zero => exact absurd within (Nat.not_succ_le_zero count)
      | succ spare =>
        rw [trail, done]
        exact List.mem_cons_of_mem start (ih (Nat.le_of_succ_le_succ within) rest)

inductive Reaches (σ : Type) [Host σ] (program : Program) (start : Machine) : Machine → Prop
  | refl : Reaches σ program start start
  | turn {machine next : Machine} {calls : CallStack} {host after : σ}
      (before : Reaches σ program start machine)
      (done : program.turn machine host = .done calls next after) : Reaches σ program start next

theorem Reaches.trans {program : Program} {start middle last : Machine}
    (first : Reaches σ program start middle) (second : Reaches σ program middle last) :
    Reaches σ program start last := by
  induction second with
  | refl => exact first
  | turn before done ih => exact .turn ih done

/-- However many turns are done, the stack is what it was before them. -/
theorem Reaches.calls {program : Program} {start machine : Machine}
    (reached : Reaches σ program start machine) : machine.calls = start.calls := by
  induction reached with
  | refl => rfl
  | turn _ done ih => exact (calls_of_turn done).trans ih

theorem reaches_of_progress {program : Program} {count : Nat} {start machine : Machine}
    {host after : σ} (going : program.progress count start host = some (machine, after)) :
    Reaches σ program start machine := by
  induction count generalizing start host with
  | zero =>
    rw [progress, Option.some.injEq, Prod.mk.injEq] at going
    exact going.1 ▸ .refl
  | succ count ih =>
    obtain ⟨calls, next, between, done, rest⟩ := exists_done_of_progress_succ going
    have first : Reaches σ program start next := .turn .refl done
    exact first.trans (ih rest)

theorem reaches_of_waiting {program : Program} {spare left : Nat} {start machine : Machine}
    {host : σ} (waits : (program.execute spare start host).outcome = .waiting machine left) :
    Reaches σ program start machine := by
  fun_induction program.execute spare start host with
  | case1 | case2 | case4 => contradiction
  | case3 spare start host steps calls after turn =>
    rw [Outcome.waiting.injEq] at waits
    exact waits.1 ▸ .refl
  | case5 start host calls next after done spare ih =>
    have first : Reaches σ program start next := .turn .refl done
    exact first.trans (ih waits)

/-- The stack as it is left; the frame of the run goes only when the program has ended. -/
def Stop.callsAfter {σ : Type} (stop : Stop σ) : CallStack :=
  match stop.outcome with
  | .ended => stop.calls.pop
  | _ => stop.calls

/-- A failed run leaves the frames on the stack that its failure tells of. -/
theorem failure_eq_of_execute {program : Program} {spare : Nat} {machine : Machine} {host : σ}
    {failure : Failure} (failed : (program.execute spare machine host).outcome = .failed failure) :
    failure = (program.execute spare machine host).calls.failure failure.cause := by
  fun_induction program.execute spare machine host with
  | case1 | case3 => contradiction
  | case2 spare machine host steps own left after turn =>
    rw [Outcome.failed.injEq] at failed
    exact failed ▸ failure_eq_of_turn turn
  | case4 machine host calls next after done =>
    rw [Outcome.failed.injEq] at failed
    subst failed
    rfl
  | case5 machine host calls next after done spare ih => exact ih failed

theorem calls_of_ended {program : Program} {spare : Nat} {machine : Machine} {host : σ}
    (ended : (program.execute spare machine host).outcome = .ended) :
    (program.execute spare machine host).calls = machine.calls := by
  fun_induction program.execute spare machine host with
  | case1 => rfl
  | case2 | case3 | case4 => contradiction
  | case5 machine host calls next after done spare ih =>
    exact (ih ended).trans (calls_of_turn done)

end Program

theorem Interpreter.snd_advance (job : Job) (host : σ) :
    (advance job host).2 =
      let stop := job.program.execute job.spare job.machine host
      ⟨stop.host, .empty, stop.callsAfter, stop.steps⟩ := by
  rw [advance]
  dsimp only [Program.Stop.callsAfter]
  cases (job.program.execute job.spare job.machine host).outcome <;> rfl

/-- The machines at which a run looks for an instruction, from a job on: those of its trail and, if
it has to wait, those of its trails after that, on whatever host it is taken up again. -/
inductive Job.Visits (σ : Type) [Host σ] : Job → Machine → Prop
  | trail {job : Job} {host : σ} {machine : Machine}
      (member : machine ∈ job.program.trail job.spare job.machine host) : Visits σ job machine
  | resumed {job : Job} {host : σ} {waiting machine : Machine} {spare : Nat}
      (waits : (job.program.execute job.spare job.machine host).outcome = .waiting waiting spare)
      (later : Visits σ ⟨job.program, waiting, spare⟩ machine) : Visits σ job machine

theorem Job.Visits.reaches {job : Job} {machine : Machine} (visits : job.Visits σ machine) :
    job.program.Reaches σ job.machine machine := by
  induction visits with
  | trail member =>
    obtain ⟨count, after, -, going⟩ := Program.mem_trail_iff.1 member
    exact Program.reaches_of_progress going
  | resumed waits _ ih => exact (Program.reaches_of_waiting waits).trans ih

end AwaLang
