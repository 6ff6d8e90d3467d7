import AwaLang.Host.Channel
import AwaLang.Proofs.Machine.Runs

/-!
The traces of failures. Every turn that is done takes off the stack what it put there, so that a
failure tells of the instruction that the run was at, and of nothing that it had left behind. How
far a run had come is told across its waits.
-/

namespace AwaLang

def Cause.operation? : Cause → Option Opcode
  | stackUnderflow op _ | missingParameter op | divisionByZero op | overflow op => some op
  | malformedSource _ | invalidOpcode _ | alphabet _ | notNumeric _ | limitExceeded _ | io _ => none

namespace Failure

structure PointsAt (failure : Failure) (calls : CallStack) (op : Opcode) (address : Nat) :
    Prop where
  frames : failure.frames = (calls.push (.instruction op address)).frames
  operation : ∀ named, failure.cause.operation? = some named → named = op
  valid : ∀ name, failure.cause ≠ .invalidOpcode name

/-- The failure is one of the token at an address: it names no operation, or the failure is one of
the operation that it names. -/
def TellsOf (failure : Failure) (calls : CallStack) (token : Token) (address : Nat) : Prop :=
  match Opcode.decode token with
  | none => failure = calls.failure (.invalidOpcode (Opcode.nameOf token))
  | some op => failure.PointsAt calls op address

variable {failure : Failure} {calls : CallStack} {op : Opcode} {token : Token} {address : Nat}

theorem pointsAt_of_arises
    (frames : failure.frames = (calls.push (.instruction op address)).frames)
    (arises : failure.cause.Arises op) : failure.PointsAt calls op address := by
  obtain ⟨cause, own⟩ := failure
  refine ⟨frames, ?_, ?_⟩
  · intro named same
    cases cause with
    | stackUnderflow | divisionByZero | overflow => exact (Option.some.inj same).symm.trans arises
    | _ => contradiction
  · intro name same
    subst same
    contradiction

theorem pointsAt_of_io {message : String}
    (frames : failure.frames = (calls.push (.instruction op address)).frames)
    (broken : failure.cause = .io message) : failure.PointsAt calls op address := by
  obtain ⟨cause, own⟩ := failure
  subst broken
  exact ⟨frames, nofun, nofun⟩

theorem TellsOf.of_pointsAt (decoded : Opcode.decode token = some op)
    (points : failure.PointsAt calls op address) : failure.TellsOf calls token address := by
  rw [TellsOf, decoded]
  exact points

/-- Only a token that names no operation leaves the run without an instruction. -/
theorem TellsOf.frames_iff (tells : failure.TellsOf calls token address) :
    failure.frames = calls.frames ↔ ∃ name, failure.cause = .invalidOpcode name := by
  unfold TellsOf at tells
  split at tells
  · subst tells
    exact ⟨fun _ => ⟨_, rfl⟩, fun _ => rfl⟩
  · rw [tells.frames, CallStack.frames_push]
    constructor
    · intro short
      exact absurd (List.append_right_eq_self.1 short) (List.cons_ne_nil _ _)
    · intro invalid
      obtain ⟨name, same⟩ := invalid
      exact absurd same (tells.valid name)

end Failure

def Instruction.opcode? : Instruction → Option Opcode
  | plain op | applied op _ | truncated op => some op
  | unknown _ => none

theorem Instruction.exists_token_of_at? {tokens : List Token} {index : Nat}
    {instruction : Instruction} (found : at? tokens index = some instruction) :
    ∃ token, tokens[index]? = some token ∧ Opcode.decode token = instruction.opcode? ∧
      ∀ own, instruction = .unknown own → own = token := by
  cases at?_eq_some_iff.1 found with
  | @unknown token present undecoded =>
    exact ⟨token, present, undecoded, fun own same => (Instruction.unknown.inj same).symm⟩
  | plain present decoded | truncated present decoded | applied present decoded =>
    exact ⟨_, present, decoded, nofun⟩

theorem Instruction.exists_token_of_operation? {tokens : List Token} {index : Nat}
    {instruction : Instruction} {op : Opcode} {parameter : Token}
    (found : at? tokens index = some instruction)
    (performs : instruction.operation? = some (op, parameter)) :
    ∃ token, tokens[index]? = some token ∧ Opcode.decode token = some op := by
  obtain ⟨token, present, decoded, -⟩ := exists_token_of_at? found
  refine ⟨token, present, decoded.trans ?_⟩
  cases instruction with
  | plain | applied =>
    rw [operation?, Option.some.injEq, Prod.mk.injEq] at performs
    exact congrArg some performs.1
  | truncated | unknown => contradiction

variable {σ : Type} [Host σ]

namespace Program

theorem tellsOf_of_turn {program : Program} {machine left : Machine} {failure : Failure}
    {host after : σ} (failed : program.turn machine host = .failed failure left after) :
    ∃ token, program.tokens[machine.cursor]? = some token ∧
      failure.TellsOf machine.calls token machine.cursor := by
  rcases failure_of_turn failed with ⟨unknown, found, -, rfl⟩ | ⟨op, found, -, rfl⟩ |
    ⟨instruction, op, parameter, found, performs, -, copied, origin⟩
  · obtain ⟨token, present, decoded, same⟩ := Instruction.exists_token_of_at? found
    refine ⟨token, present, ?_⟩
    rw [same unknown rfl, Failure.TellsOf, decoded]
    rfl
  · obtain ⟨token, present, decoded, -⟩ := Instruction.exists_token_of_at? found
    refine ⟨token, present, .of_pointsAt decoded ⟨rfl, ?_, nofun⟩⟩
    intro named same
    exact (Option.some.inj same).symm
  · obtain ⟨token, present, decoded⟩ := Instruction.exists_token_of_operation? found performs
    refine ⟨token, present, .of_pointsAt decoded ?_⟩
    have frames := congrArg Failure.frames copied
    rcases origin with arises | ⟨message, broken⟩
    · exact Failure.pointsAt_of_arises frames arises
    · exact Failure.pointsAt_of_io frames broken

/-- The instruction that uses up the budget still has its frame on the stack. -/
theorem tellsOf_of_done {program : Program} {machine next : Machine} {calls : CallStack}
    {host after : σ} (done : program.turn machine host = .done calls next after) (limit : Nat) :
    ∃ token, program.tokens[machine.cursor]? = some token ∧
      (calls.failure (.limitExceeded limit)).TellsOf machine.calls token machine.cursor := by
  obtain ⟨instruction, op, parameter, found, performs, rfl, -⟩ := yields_of_turn done
  obtain ⟨token, present, decoded⟩ := Instruction.exists_token_of_operation? found performs
  exact ⟨token, present, .of_pointsAt decoded ⟨rfl, nofun, nofun⟩⟩

/-- How far a run has come: the instructions that are done, and where it is. A read that has to wait
is taken up again on whatever host there is by then. -/
inductive Course (program : Program) (start : Machine) (origin : σ) : Nat → Machine → σ → Prop
  | start : Course program start origin 0 start origin
  | done {count : Nat} {machine next : Machine} {calls : CallStack} {host after : σ}
      (before : Course program start origin count machine host)
      (turn : program.turn machine host = .done calls next after) :
      Course program start origin (count + 1) next after
  | waited {count : Nat} {machine : Machine} {calls : CallStack} {host after : σ}
      (before : Course program start origin count machine host)
      (turn : program.turn machine host = .waiting calls after) (later : σ) :
      Course program start origin count machine later

/-- The turn at a machine ends the run with a failure: it fails, or it is done and was the last one
that the budget had room for. -/
def Fails (program : Program) (count : Nat) (machine : Machine) (host : σ) (failure : Failure) :
    Prop :=
  (∃ left after, program.turn machine host = .failed failure left after) ∨
    count + 1 = limit ∧ ∃ calls next after, program.turn machine host = .done calls next after ∧
      failure = calls.failure (.limitExceeded limit)

theorem Fails.tellsOf {program : Program} {count : Nat} {machine : Machine} {host : σ}
    {failure : Failure} (fails : program.Fails count machine host failure) :
    ∃ token, program.tokens[machine.cursor]? = some token ∧
      failure.TellsOf machine.calls token machine.cursor := by
  rcases fails with ⟨left, after, failed⟩ | ⟨-, calls, next, after, done, rfl⟩
  · exact tellsOf_of_turn failed
  · exact tellsOf_of_done done limit

theorem Fails.limitExceeded_iff {program : Program} {count : Nat} {machine : Machine} {host : σ}
    {failure : Failure} (fails : program.Fails count machine host failure) :
    (∃ bound, failure.cause = .limitExceeded bound) ↔
      count + 1 = limit ∧ failure.cause = .limitExceeded limit ∧
        ∃ calls next after, program.turn machine host = .done calls next after := by
  constructor
  · intro exceeded
    obtain ⟨bound, same⟩ := exceeded
    rcases fails with ⟨left, after, failed⟩ | ⟨last, calls, next, after, done, rfl⟩
    · exact absurd same (cause_ne_limitExceeded failed bound)
    · exact ⟨last, rfl, calls, next, after, done⟩
  · intro last
    exact ⟨limit, last.2.1⟩

namespace Course

variable {program : Program} {start machine : Machine} {origin host : σ} {spare : Nat}

/-- The stack is balanced wherever a run has come to. -/
theorem calls {count : Nat} (course : program.Course start origin count machine host) :
    machine.calls = start.calls := by
  induction course with
  | start => rfl
  | done _ turn ih => exact (calls_of_turn turn).trans ih
  | waited _ _ _ ih => exact ih

theorem of_failed {failure : Failure}
    (failed : (program.execute spare machine host).outcome = .failed failure) (count : Nat)
    (budget : count + spare + 1 = limit)
    (course : program.Course start origin count machine host) :
    ∃ count last between, count < limit ∧ program.Course start origin count last between ∧
      program.Fails count last between failure := by
  revert count
  fun_induction program.execute spare machine host with
  | case1 | case3 => contradiction
  | case2 spare machine host steps own left after turn =>
    intro count budget course
    rw [Outcome.failed.injEq] at failed
    subst failed
    exact ⟨count, machine, host, by omega, course, .inl ⟨left, after, turn⟩⟩
  | case4 machine host calls next after turn =>
    intro count budget course
    rw [Outcome.failed.injEq] at failed
    have last : count + 1 = limit := budget
    exact ⟨count, machine, host, by omega, course,
      .inr ⟨last, calls, next, after, turn, failed.symm⟩⟩
  | case5 machine host calls next after turn spare ih =>
    intro count budget course
    exact ih failed (count + 1) (by omega) (course.done turn)

theorem of_waiting {last : Machine} {left : Nat}
    (waits : (program.execute spare machine host).outcome = .waiting last left) (count : Nat)
    (budget : count + spare + 1 = limit)
    (course : program.Course start origin count machine host) :
    ∃ count, count + left + 1 = limit ∧
      ∀ later, program.Course start origin count last later := by
  revert count
  fun_induction program.execute spare machine host with
  | case1 | case2 | case4 => contradiction
  | case3 spare machine host steps calls after turn =>
    intro count budget course
    rw [Outcome.waiting.injEq] at waits
    obtain ⟨rfl, rfl⟩ := waits
    exact ⟨count, budget, course.waited turn⟩
  | case5 machine host calls next after turn spare ih =>
    intro count budget course
    exact ih waits (count + 1) (by omega) (course.done turn)

end Course

end Program

namespace Interpreter

/-- What a run of a stream can come to: what it reports at once, and whatever it reports when it is
taken up again, on any host, after it had to wait. -/
inductive Comes (i : Interpreter σ) (tokens : List Token) : Report → Prop
  | first : Comes i tokens (i.runTokens tokens).1
  | again {job : Job} (waits : Comes i tokens (.waiting job)) (host : σ) :
      Comes i tokens (advance job host).1

variable {i : Interpreter σ} {tokens : List Token} {job : Job} {failure : Failure}

def Continues (i : Interpreter σ) (tokens : List Token) (job : Job) (host : σ) : Prop :=
  Program.ofTokens? tokens = some job.program ∧
    ∃ count, count + job.spare + 1 = Program.limit ∧
      job.program.Course i.start i.host count job.machine host

theorem continues_of_prepare (prepared : i.prepare tokens = .ok job) :
    i.Continues tokens job i.host := by
  obtain ⟨resolved, front, budget⟩ := prepare_eq_ok prepared
  refine ⟨resolved, 0, ?_, ?_⟩
  · rw [Nat.zero_add]
    exact budget
  · rw [front]
    exact .start

theorem Continues.of_waiting {later : Job} {host : σ} (continues : i.Continues tokens job host)
    (waits : (advance job host).1 = .waiting later) (after : σ) :
    i.Continues tokens later after := by
  obtain ⟨resolved, count, budget, course⟩ := continues
  obtain ⟨same, outcome⟩ := outcome_of_advance waits
  obtain ⟨done, left, further⟩ := Program.Course.of_waiting outcome count budget course
  rw [Continues, same]
  exact ⟨resolved, done, left, further after⟩

theorem continues_of_comes (comes : i.Comes tokens (.waiting job)) (host : σ) :
    i.Continues tokens job host := by
  generalize same : Report.waiting job = report at comes
  induction comes generalizing job host with
  | first =>
    rw [runTokens] at same
    split at same
    · rename_i prepared
      exact (continues_of_prepare prepared).of_waiting same.symm host
    · contradiction
  | again waits between ih => exact (ih between rfl).of_waiting same.symm host

theorem Continues.of_failed {host : σ} (continues : i.Continues tokens job host)
    (failed : (advance job host).1 = .failed failure) :
    ∃ program count machine between, Program.ofTokens? tokens = some program ∧
      count < Program.limit ∧ program.Course i.start i.host count machine between ∧
      program.Fails count machine between failure := by
  obtain ⟨resolved, count, budget, course⟩ := continues
  obtain ⟨done, machine, between, within, further, fails⟩ :=
    Program.Course.of_failed (outcome_of_advance_failed failed) count budget course
  exact ⟨job.program, done, machine, between, resolved, within, further, fails⟩

theorem fails_of_comes (comes : i.Comes tokens (.failed failure)) :
    (Labels.ofTokens? tokens = none ∧
      failure = ⟨.missingParameter .lbl, [.run, .resolveLabels]⟩) ∨
    ∃ program count machine between, Program.ofTokens? tokens = some program ∧
      count < Program.limit ∧ program.Course i.start i.host count machine between ∧
      program.Fails count machine between failure := by
  generalize same : Report.failed failure = report at comes
  cases comes with
  | first =>
    rw [runTokens] at same
    split at same
    · rename_i prepared
      exact .inr ((continues_of_prepare prepared).of_failed same.symm)
    · rename_i own refused
      rw [Report.failed.injEq] at same
      subst same
      obtain ⟨unresolved, alone⟩ := prepare_eq_error refused
      exact .inl ⟨Option.map_eq_none_iff.1 unresolved, alone⟩
  | again waits host => exact .inr ((continues_of_comes waits host).of_failed same.symm)

/-- Whatever earlier runs left on the stack, and whatever a run reads and however often it waits,
its failure tells where it was, in at most two frames. If its labels cannot be told, it was not at
an instruction yet; else it had come to a token within the budget, with nothing on the stack but
its own frame, and the failure is that of the turn there: of the token itself, if that names no
operation, and of the operation, its name and its index otherwise. Only the last turn that the
budget has room for fails for the budget. -/
theorem failures_traced {i : Interpreter σ} {tokens : List Token} {failure : Failure}
    (comes : i.Comes tokens (.failed failure)) :
    (failure.frames = [.run] ↔ ∃ name, failure.cause = .invalidOpcode name) ∧
    (Labels.ofTokens? tokens = none →
      failure = ⟨.missingParameter .lbl, [.run, .resolveLabels]⟩ ∧
        failure.frames.map Frame.text = ["run", "resolve labels"]) ∧
    ∀ labels, Labels.ofTokens? tokens = some labels → ∃ count machine host token,
      count < Program.limit ∧
      Program.Course ⟨tokens, labels⟩ i.start i.host count machine host ∧
      machine.calls.frames = [.run] ∧
      Program.Fails ⟨tokens, labels⟩ count machine host failure ∧
      tokens[machine.cursor]? = some token ∧
      (Opcode.decode token = none → failure = ⟨.invalidOpcode (Opcode.nameOf token), [.run]⟩) ∧
      (∀ op, Opcode.decode token = some op →
        failure.frames.map Frame.text = ["run", s!"{op.mnemonic}@{machine.cursor}"] ∧
        (∀ named, failure.cause.operation? = some named → named = op) ∧
        ∀ name, failure.cause ≠ .invalidOpcode name) ∧
      ((∃ bound, failure.cause = .limitExceeded bound) ↔
        count + 1 = Program.limit ∧ failure.cause = .limitExceeded Program.limit ∧
          ∃ calls next after,
            Program.turn ⟨tokens, labels⟩ machine host = .done calls next after) := by
  rcases fails_of_comes comes with ⟨unresolved, rfl⟩ |
    ⟨program, count, machine, host, resolved, within, course, fails⟩
  · refine ⟨?_, fun _ => ⟨rfl, rfl⟩, ?_⟩
    · constructor
      · intro short
        exact absurd (congrArg List.length short) (by decide)
      · intro invalid
        obtain ⟨name, same⟩ := invalid
        contradiction
    · intro labels resolved
      rw [unresolved] at resolved
      contradiction
  · obtain ⟨labels, table, rfl⟩ := Option.map_eq_some_iff.1 resolved
    -- The run began with its own frame alone, and no turn behind it has left another one.
    have balanced : machine.calls = ⟨[.run]⟩ := course.calls
    obtain ⟨token, present, tells⟩ := fails.tellsOf
    rw [balanced] at tells
    refine ⟨tells.frames_iff, ?_, ?_⟩
    · intro unresolved
      rw [table] at unresolved
      contradiction
    · intro own same
      rw [table, Option.some.injEq] at same
      subst same
      have alone : machine.calls.frames = [.run] := congrArg CallStack.frames balanced
      refine ⟨count, machine, host, token, within, course, alone, fails, present, ?_, ?_,
        fails.limitExceeded_iff⟩
      · intro unknown
        rwa [Failure.TellsOf, unknown] at tells
      · intro op decoded
        rw [Failure.TellsOf, decoded] at tells
        refine ⟨?_, tells.operation, tells.valid⟩
        rw [tells.frames]
        rfl

/-- A division by the bubble under a line that the run had to wait for. -/
theorem failures_traced_after_wait :
    (new (Channel.new 1 none)).Comes [5, 0, 4, 14]
      (.failed ⟨.divisionByZero .div, [.run, .instruction .div 3]⟩) ∧
    Labels.ofTokens? [5, 0, 4, 14] = some .empty ∧
    ∃ count machine host,
      Program.Course ⟨[5, 0, 4, 14], .empty⟩ ⟨⟨0, .empty⟩, ⟨[.run]⟩⟩ (Channel.new 1 none) count
        machine host ∧
      Program.Fails ⟨[5, 0, 4, 14], .empty⟩ count machine host
        ⟨.divisionByZero .div, [.run, .instruction .div 3]⟩ := by
  have late : ((new (Channel.new 1 none)).runTokens [5, 0, 4, 14]).1 =
      .waiting ⟨⟨[5, 0, 4, 14], .empty⟩, ⟨⟨2, ⟨[.scalar 0]⟩⟩, ⟨[.run]⟩⟩, 9998⟩ := by
    decide +kernel
  have waits : (new (Channel.new 1 none)).Comes [5, 0, 4, 14]
      (.waiting ⟨⟨[5, 0, 4, 14], .empty⟩, ⟨⟨2, ⟨[.scalar 0]⟩⟩, ⟨[.run]⟩⟩, 9998⟩) := late ▸ .first
  have failed : (advance ⟨⟨[5, 0, 4, 14], .empty⟩, ⟨⟨2, ⟨[.scalar 0]⟩⟩, ⟨[.run]⟩⟩, 9998⟩
      ((Channel.new 1 none).enqueue "7")).1 =
        .failed ⟨.divisionByZero .div, [.run, .instruction .div 3]⟩ := by
    decide +kernel
  have comes : (new (Channel.new 1 none)).Comes [5, 0, 4, 14]
      (.failed ⟨.divisionByZero .div, [.run, .instruction .div 3]⟩) :=
    failed ▸ waits.again ((Channel.new 1 none).enqueue "7")
  have resolved : Labels.ofTokens? [5, 0, 4, 14] = some .empty := by decide +kernel
  obtain ⟨count, machine, host, token, -, course, -, fails, -⟩ :=
    (failures_traced comes).2.2 .empty resolved
  exact ⟨comes, resolved, count, machine, host, course, fails⟩

end Interpreter

end AwaLang
