import AwaLang.Proofs.Machine.Runs

namespace AwaLang

def Opcode.reads : Opcode → Bool
  | red | r3d => true
  | _ => false

namespace Effect

def reads : Effect → Bool
  | read _ => true
  | _ => false

variable {op : Opcode} {next : Nat} {abyss : Abyss}

theorem reads_print (textOf : Bubble → Except Cause String) :
    (print op next abyss textOf).reads = false := by
  unfold print
  split
  · rfl
  · split <;> rfl

theorem reads_rearrange (result : Except Underflow Abyss) :
    (rearrange op next abyss result).reads = false := by
  cases result <;> rfl

theorem reads_calculate : (calculate op next abyss).reads = false := by
  unfold calculate
  split
  · rfl
  · split
    · rfl
    · split <;> rfl

theorem reads_branch (labels : Labels) (label : Token) :
    (branch labels op label next abyss).reads = false := by
  unfold branch
  split <;> rfl

end Effect

namespace Program

theorem reads_perform (program : Program) (op : Opcode) (parameter : Token) (next : Nat)
    (abyss : Abyss) : (program.perform op parameter next abyss).reads = op.reads := by
  cases op with
  | nop | lbl | blo | trm | red | r3d => rfl
  | prn | pr1 =>
    rw [perform]
    exact Effect.reads_print _
  | sbm | pop | dpl | srn | mrg | cnt => exact Effect.reads_rearrange _
  | add | sub | mul | div => exact Effect.reads_calculate
  | jmp | eql | lss | gr8 | eqz =>
    rw [perform]
    exact Effect.reads_branch _ _

def readsAt (program : Program) (machine : Machine) : Bool :=
  ((Instruction.at? program.tokens machine.cursor).bind Instruction.operation?).any (·.1.reads)

end Program

variable {σ : Type} [Host σ]

def Turn.host {σ : Type} (before : σ) : Turn σ → σ
  | ended => before
  | failed _ _ host | waiting _ host | done _ _ host => host

def Turn.waits {σ : Type} : Turn σ → Bool
  | waiting _ _ => true
  | _ => false

namespace Turn

variable {effect : Effect} {machine : Machine} {host after : σ}

theorem host_ofEffect_of_reads (reads : effect.reads = true) :
    (ofEffect machine host effect).host host = (Host.read host).2 := by
  cases effect with
  | proceed | write | fail => contradiction
  | read resume =>
    simp only [ofEffect]
    split
    all_goals
      rename_i answered
      rw [answered]
    · split <;> rfl
    · split <;> rfl
    · rfl
    · rfl

theorem host_ofEffect_of_not_reads (reads : effect.reads = false) :
    (ofEffect machine host effect).host host = host ∨
      ∃ text, Host.write host text = .ok ((ofEffect machine host effect).host host) := by
  cases effect with
  | read => contradiction
  | proceed | fail => exact .inl rfl
  | write text next =>
    simp only [ofEffect]
    split
    · rename_i taken
      exact .inr ⟨text, taken⟩
    · exact .inl rfl

theorem ofEffect_eq_waiting_iff :
    (∃ calls, ofEffect machine host effect = .waiting calls after) ↔
      effect.reads = true ∧ Host.read host = (.notYet, after) := by
  cases effect with
  | proceed | fail => simp [ofEffect, Effect.reads]
  | write text next =>
    simp only [ofEffect, Effect.reads]
    split <;> simp
  | read resume =>
    simp only [ofEffect, Effect.reads]
    split
    all_goals
      rename_i answered
      rw [answered]
    · split <;> simp
    · split <;> simp
    · simp
    · simp

end Turn

namespace Program

variable {program : Program} {machine : Machine} {host after : σ}

/-- A turn either has the effect of an operation, or stops without asking the host for anything. -/
theorem turn_cases (program : Program) (machine : Machine) (host : σ) :
    (∃ frame effect, program.turn machine host = Turn.ofEffect (machine.enter frame) host effect ∧
      effect.reads = program.readsAt machine) ∨
    (program.readsAt machine = false ∧ (program.turn machine host = .ended ∨
      ∃ failure left, program.turn machine host = .failed failure left host)) := by
  cases found : Instruction.at? program.tokens machine.cursor with
  | none =>
    refine .inr ⟨by rw [readsAt, found]; rfl, .inl ?_⟩
    rw [turn, found]
  | some instruction =>
    cases performs : instruction.operation? with
    | some operation =>
      obtain ⟨op, parameter⟩ := operation
      refine .inl ⟨_, _, turn_eq found performs host, ?_⟩
      rw [reads_perform, readsAt, found, Option.bind_some, performs]
      rfl
    | none =>
      refine .inr ⟨by rw [readsAt, found, Option.bind_some, performs]; rfl, .inr ?_⟩
      rw [turn, found]
      cases instruction with
      | plain | applied => contradiction
      | truncated | unknown => exact ⟨_, _, rfl⟩

theorem host_turn_of_readsAt (reads : program.readsAt machine = true) (host : σ) :
    (program.turn machine host).host host = (Host.read host).2 := by
  rcases program.turn_cases machine host with ⟨frame, effect, same, kind⟩ | ⟨silent, -⟩
  · rw [same]
    exact Turn.host_ofEffect_of_reads (kind.trans reads)
  · rw [reads] at silent
    contradiction

theorem host_turn_of_not_readsAt (reads : program.readsAt machine = false) (host : σ) :
    (program.turn machine host).host host = host ∨
      ∃ text, Host.write host text = .ok ((program.turn machine host).host host) := by
  rcases program.turn_cases machine host with
    ⟨frame, effect, same, kind⟩ | ⟨-, ended | ⟨failure, left, failed⟩⟩
  · rw [same]
    exact Turn.host_ofEffect_of_not_reads (kind.trans reads)
  · rw [ended]
    exact .inl rfl
  · rw [failed]
    exact .inl rfl

theorem turn_eq_waiting_iff :
    (∃ calls, program.turn machine host = .waiting calls after) ↔
      program.readsAt machine = true ∧ Host.read host = (.notYet, after) := by
  rcases program.turn_cases machine host with
    ⟨frame, effect, same, kind⟩ | ⟨silent, ended | ⟨failure, left, failed⟩⟩
  · rw [same, Turn.ofEffect_eq_waiting_iff, kind]
  · simp [ended, silent]
  · simp [failed, silent]

/-- How often a run reads, a read that has to wait included. -/
def reads (program : Program) (spare : Nat) (machine : Machine) (host : σ) : Nat :=
  (program.trail spare machine host).countP program.readsAt

theorem reads_pos (reads : program.readsAt machine = true) (spare : Nat) (host : σ) :
    0 < program.reads spare machine host := by
  rw [Program.reads, trail, List.countP_cons, if_pos reads]
  exact Nat.succ_pos _

theorem reads_of_done {calls : CallStack} {next : Machine}
    (done : program.turn machine host = .done calls next after) (spare : Nat) :
    program.reads (spare + 1) machine host =
      program.reads spare next after + (program.readsAt machine).toNat := by
  rw [reads, trail, done, List.countP_cons, reads]
  cases program.readsAt machine <;> rfl

theorem reads_of_last {spare : Nat} (last : program.trail spare machine host = [machine]) :
    program.reads spare machine host = (program.readsAt machine).toNat := by
  rw [reads, last, List.countP_singleton]
  cases program.readsAt machine <;> rfl

theorem reads_of_stops (stops : ∀ calls next after,
    program.turn machine host ≠ .done calls next after) (spare : Nat) :
    program.reads spare machine host = (program.readsAt machine).toNat := by
  apply reads_of_last
  rw [trail.eq_def]
  split
  · rename_i done
    exact absurd done (stops _ _ _)
  · rfl

theorem reads_zero (program : Program) (machine : Machine) (host : σ) :
    program.reads 0 machine host = (program.readsAt machine).toNat := by
  apply reads_of_last
  rw [trail]
  split <;> rfl

def Outcome.waits : Outcome → Bool
  | waiting _ _ => true
  | _ => false

theorem readsAt_of_waiting {spare left : Nat} {last : Machine}
    (waits : (program.execute spare machine host).outcome = .waiting last left) :
    program.readsAt last = true ∧
      ∃ before, Host.read before = (.notYet, (program.execute spare machine host).host) := by
  fun_induction program.execute spare machine host with
  | case1 | case2 | case4 => contradiction
  | case3 spare machine host steps calls after taken =>
    rw [Outcome.waiting.injEq] at waits
    obtain ⟨reads, late⟩ := turn_eq_waiting_iff.1 ⟨calls, taken⟩
    exact ⟨waits.1 ▸ reads, host, late⟩
  | case5 machine host calls next after taken spare ih => exact ih waits

end Program

def Report.waits : Report → Bool
  | waiting _ => true
  | _ => false

theorem Report.exists_of_waits {report : Report} (waits : report.waits = true) :
    ∃ job, report = .waiting job := by
  cases report with
  | waiting job => exact ⟨job, rfl⟩
  | finished | failed => contradiction

def Job.reads (job : Job) (host : σ) : Nat := job.program.reads job.spare job.machine host

def Interpreter.reads (i : Interpreter σ) (tokens : List Token) : Nat :=
  match i.prepare tokens with
  | .ok job => job.reads i.host
  | .error _ => 0

namespace Interpreter

theorem advance_waits (job : Job) (host : σ) :
    (advance job host).1.waits =
      (job.program.execute job.spare job.machine host).outcome.waits := by
  rw [advance]
  cases (job.program.execute job.spare job.machine host).outcome <;> rfl

theorem host_advance (job : Job) (host : σ) :
    (advance job host).2.host = (job.program.execute job.spare job.machine host).host := by
  rw [snd_advance]

theorem read_of_advance {job later : Job} {host : σ}
    (waits : (advance job host).1 = .waiting later) :
    later.program.readsAt later.machine = true ∧
      ∃ before, Host.read before = (.notYet, (advance job host).2.host) := by
  obtain ⟨program, waits⟩ := outcome_of_advance waits
  rw [program, host_advance]
  exact Program.readsAt_of_waiting waits

theorem readsAt_of_run {i : Interpreter σ} {submission : Submission} {job : Job}
    (waits : (i.run submission).1 = .waiting job) : job.program.readsAt job.machine = true := by
  have reads {tokens : List Token} (waits : (i.runTokens tokens).1 = .waiting job) :
      job.program.readsAt job.machine = true := by
    rw [runTokens] at waits
    split at waits
    · exact (read_of_advance waits).1
    · contradiction
  cases submission with
  | tokens tokens => exact reads waits
  | source text =>
    rw [run, runSource] at waits
    split at waits
    · exact reads waits
    · contradiction

end Interpreter

end AwaLang
