import AwaLang.Proofs.Interpreter.Truncation
import Mathlib.Data.List.Perm.Subperm

namespace AwaLang

open Instruction

def ForwardOnly (tokens : List Token) : Prop :=
  ∀ labels ∈ Labels.ofTokens? tokens, ∀ jump ∈ ofTokens tokens,
    ∀ label ∈ jump.instruction.target?, ∀ index ∈ labels.find? label, jump.address < index

instance (tokens : List Token) : Decidable (ForwardOnly tokens) :=
  inferInstanceAs (Decidable (∀ labels ∈ Labels.ofTokens? tokens, ∀ jump ∈ ofTokens tokens,
    ∀ label ∈ jump.instruction.target?, ∀ index ∈ labels.find? label, jump.address < index))

theorem Instruction.target?_of_isJump {tokens : List Token} {index : Nat}
    {instruction : Instruction} {op : Opcode} {parameter : Token}
    (found : at? tokens index = some instruction)
    (performs : instruction.operation? = some (op, parameter)) (jump : op.isJump = true) :
    instruction.target? = some parameter := by
  cases instruction with
  | truncated | unknown => contradiction
  | applied own operand =>
    rw [operation?, Option.some.injEq, Prod.mk.injEq] at performs
    rw [target?, performs.1, if_pos jump, performs.2]
  | plain own =>
    rw [operation?, Option.some.injEq, Prod.mk.injEq] at performs
    have alone := takesParameter_of_at?_plain found
    rw [performs.1, Opcode.takesParameter_of_isJump jump] at alone
    contradiction

theorem Labels.lt_goto {labels : Labels} {label : Token} {here next : Nat} (on : here < next)
    (forward : ∀ index, labels.find? label = some index → here < index) :
    here < labels.goto label next := by
  rw [goto]
  split
  · rename_i index found
    exact Nat.lt_succ_of_lt (forward index found)
  · exact on

variable {σ : Type} [Host σ]

theorem cursor_lt_of_turn {tokens : List Token} {labels : Labels} (forward : ForwardOnly tokens)
    (table : Labels.ofTokens? tokens = some labels) {machine next : Machine} {calls : CallStack}
    {host after : σ} (aligned : Aligned tokens machine.cursor)
    (done : Program.turn ⟨tokens, labels⟩ machine host = .done calls next after) :
    machine.cursor < next.cursor := by
  obtain ⟨instruction, op, parameter, found, performs, -, -, yields⟩ := Program.yields_of_turn done
  have on : machine.cursor < machine.cursor + instruction.length :=
    Nat.lt_add_of_pos_right instruction.length_pos
  rcases cursor_of_yields yields with further | ended | ⟨jump, label⟩
  · exact further ▸ on
  · exact ended ▸ lt_of_at?_eq_some found
  · have target := target?_of_isJump found performs jump
    rw [label]
    apply Labels.lt_goto on
    intro index defined
    exact forward labels table _ (aligned.exists_placed found) parameter target index defined

namespace Program

/-- A run as far as it has come, with the addresses of the instructions that are done, the last one
first. A read that has to wait is taken up again on whatever host there is by then. -/
inductive Passes (program : Program) (start : Machine) (origin : σ) :
    List Nat → Machine → σ → Prop
  | start : Passes program start origin [] start origin
  | done {passed : List Nat} {machine next : Machine} {calls : CallStack} {host after : σ}
      (before : Passes program start origin passed machine host)
      (turn : program.turn machine host = .done calls next after) :
      Passes program start origin (machine.cursor :: passed) next after
  | waited {passed : List Nat} {machine : Machine} {calls : CallStack} {host after : σ}
      (before : Passes program start origin passed machine host)
      (turn : program.turn machine host = .waiting calls after) (later : σ) :
      Passes program start origin passed machine later

theorem Course.exists_passes {program : Program} {start machine : Machine} {origin host : σ}
    {count : Nat} (course : program.Course start origin count machine host) :
    ∃ passed, passed.length = count ∧ program.Passes start origin passed machine host := by
  induction course with
  | start => exact ⟨[], rfl, .start⟩
  | done before turn ih =>
    obtain ⟨passed, length, passes⟩ := ih
    exact ⟨_ :: passed, congrArg (· + 1) length, passes.done turn⟩
  | waited before turn later ih =>
    obtain ⟨passed, length, passes⟩ := ih
    exact ⟨passed, length, passes.waited turn later⟩

theorem Passes.trans {program : Program} {start middle last : Machine} {origin between host : σ}
    {first second : List Nat} (before : program.Passes start origin first middle between)
    (behind : program.Passes middle between second last host) :
    program.Passes start origin (second ++ first) last host := by
  induction behind with
  | start => exact before
  | done further turn ih => exact ih.done turn
  | waited further turn later ih => exact ih.waited turn later

theorem exists_passes_of_progress {program : Program} {count : Nat} {start machine : Machine}
    {host after : σ} (going : program.progress count start host = some (machine, after)) :
    ∃ passed, program.Passes start host passed machine after := by
  induction count generalizing start host with
  | zero =>
    rw [progress, Option.some.injEq, Prod.mk.injEq] at going
    obtain ⟨rfl, rfl⟩ := going
    exact ⟨[], .start⟩
  | succ count ih =>
    obtain ⟨calls, next, between, turn, rest⟩ := exists_done_of_progress_succ going
    obtain ⟨passed, passes⟩ := ih rest
    exact ⟨_, (Passes.start.done turn).trans passes⟩

theorem exists_passes_of_waiting {program : Program} {spare left : Nat} {start machine : Machine}
    {host : σ} (waits : (program.execute spare start host).outcome = .waiting machine left) :
    ∃ passed, ∀ later, program.Passes start host passed machine later := by
  fun_induction program.execute spare start host with
  | case1 | case2 | case4 => contradiction
  | case3 spare start host steps calls after turn =>
    rw [Outcome.waiting.injEq] at waits
    obtain ⟨rfl, -⟩ := waits
    exact ⟨[], fun later => .waited .start turn later⟩
  | case5 start host calls next after turn spare ih =>
    obtain ⟨passed, passes⟩ := ih waits
    exact ⟨_, fun later => (Passes.start.done turn).trans (passes later)⟩

theorem Course.execute {program : Program} {start machine : Machine} {origin host : σ}
    {spare count : Nat} (budget : count + spare + 1 = limit)
    (course : program.Course start origin count machine host) :
    ∃ last after, program.Course start origin (program.execute spare machine host).steps last
      after := by
  revert count
  fun_induction program.execute spare machine host with
  | case1 spare machine host steps | case2 spare machine host steps
  | case3 spare machine host steps =>
    intro count budget course
    have same : steps = count := by omega
    exact ⟨machine, host, same ▸ course⟩
  | case4 machine host calls next after turn =>
    intro count budget course
    have whole : count + 1 = limit := budget
    exact ⟨next, after, whole ▸ course.done turn⟩
  | case5 machine host calls next after turn spare ih =>
    intro count budget course
    exact ih (by omega) (course.done turn)

end Program

theorem Job.Visits.exists_passes {job : Job} {machine : Machine} (visits : job.Visits σ machine) :
    ∃ (origin : σ) (passed : List Nat) (host : σ),
      job.program.Passes job.machine origin passed machine host := by
  induction visits with
  | @trail job host machine member =>
    obtain ⟨count, after, -, going⟩ := Program.mem_trail_iff.1 member
    obtain ⟨passed, passes⟩ := Program.exists_passes_of_progress going
    exact ⟨host, passed, after, passes⟩
  | @resumed job host waiting machine spare waits later ih =>
    obtain ⟨origin, second, after, behind⟩ := ih
    obtain ⟨first, before⟩ := Program.exists_passes_of_waiting waits
    exact ⟨host, second ++ first, after, (before origin).trans behind⟩

/-- What the addresses of a run have in common on a stream whose jumps lead forward: they have grown
all the way to where the run is, and instructions stand there. -/
structure Climbs (tokens : List Token) (passed : List Nat) (cursor : Nat) : Prop where
  aligned : Aligned tokens cursor
  descending : (cursor :: passed).Pairwise (· > ·)
  instructions : passed ⊆ (ofTokens tokens).map Placed.address

theorem Climbs.nodup {tokens : List Token} {passed : List Nat} {cursor : Nat}
    (climbs : Climbs tokens passed cursor) : passed.Nodup :=
  (List.pairwise_cons.1 climbs.descending).2.imp Nat.ne_of_gt

theorem Climbs.length_le {tokens : List Token} {passed : List Nat} {cursor : Nat}
    (climbs : Climbs tokens passed cursor) : passed.length ≤ (ofTokens tokens).length := by
  have among := (climbs.nodup.subperm climbs.instructions).length_le
  rwa [List.length_map] at among

theorem climbs_of_passes {tokens : List Token} {labels : Labels} (forward : ForwardOnly tokens)
    (table : Labels.ofTokens? tokens = some labels) {i : Interpreter σ} {machine : Machine}
    {origin host : σ} {passed : List Nat}
    (passes : Program.Passes ⟨tokens, labels⟩ i.start origin passed machine host) :
    Climbs tokens passed machine.cursor := by
  induction passes with
  | start => exact ⟨aligned_zero tokens, List.pairwise_singleton _ _, List.nil_subset _⟩
  | waited before turn later ih => exact ih
  | @done passed machine next calls host after before turn ih =>
    have resolved : Program.ofTokens? tokens = some ⟨tokens, labels⟩ := by
      rw [Program.ofTokens?, table, Option.map_some]
    have further := cursor_lt_of_turn forward table ih.aligned turn
    obtain ⟨instruction, op, parameter, found, -, -, -⟩ := Program.yields_of_turn turn
    have place : machine.cursor ∈ (ofTokens tokens).map Placed.address :=
      List.mem_map_of_mem (f := Placed.address) (ih.aligned.exists_placed found)
    have inside := List.cons_subset.2 ⟨place, ih.instructions⟩
    refine ⟨aligned_of_turn resolved ih.aligned turn, ?_, inside⟩
    refine List.pairwise_cons.2 ⟨?_, ih.descending⟩
    intro address member
    rcases List.mem_cons.1 member with rfl | earlier
    · exact further
    · exact Nat.lt_trans ((List.pairwise_cons.1 ih.descending).1 address earlier) further

namespace Interpreter

variable {i : Interpreter σ} {tokens : List Token} {job : Job} {host : σ}

def Tells (i : Interpreter σ) (tokens : List Token) (steps : Nat) : Prop :=
  ∀ labels, Labels.ofTokens? tokens = some labels → ∃ passed machine host,
    Program.Passes ⟨tokens, labels⟩ i.start i.host passed machine host ∧
      passed.length = steps

theorem steps_advance (job : Job) (host : σ) :
    (advance job host).2.steps =
      (job.program.execute job.spare job.machine host).steps := by
  rw [snd_advance]

theorem tells_of_course {program : Program} {count : Nat} {machine : Machine}
    (resolved : Program.ofTokens? tokens = some program)
    (course : program.Course i.start i.host count machine host) : i.Tells tokens count := by
  intro labels table
  rw [Program.ofTokens?, table, Option.map_some, Option.some.injEq] at resolved
  subst resolved
  obtain ⟨passed, length, passes⟩ := course.exists_passes
  exact ⟨passed, machine, host, passes, length⟩

theorem Continues.tells (continues : i.Continues tokens job host) :
    i.Tells tokens (advance job host).2.steps := by
  obtain ⟨resolved, count, budget, course⟩ := continues
  obtain ⟨last, after, whole⟩ := course.execute budget
  rw [steps_advance]
  exact tells_of_course resolved whole

theorem runTokens_of_unresolved (unresolved : Labels.ofTokens? tokens = none) :
    i.runTokens tokens = (.failed ⟨.missingParameter .lbl, [.run, .resolveLabels]⟩,
      ⟨i.host, .empty, ⟨[.run, .resolveLabels]⟩, 0⟩) := by
  rw [runTokens, prepare, Program.ofTokens?, unresolved, Option.map_none]
  rfl

theorem tells_runTokens (i : Interpreter σ) (tokens : List Token) :
    i.Tells tokens (i.runTokens tokens).2.steps := by
  cases prepared : i.prepare tokens with
  | ok job =>
    rw [runTokens, prepared]
    exact (continues_of_prepare prepared).tells
  | error failure =>
    intro labels table
    rw [prepare, Program.ofTokens?, table] at prepared
    contradiction

theorem Tells.le {steps : Nat} (tells : i.Tells tokens steps) (forward : ForwardOnly tokens)
    {labels : Labels} (table : Labels.ofTokens? tokens = some labels) :
    steps ≤ (ofTokens tokens).length := by
  obtain ⟨passed, machine, host, passes, length⟩ := tells labels table
  exact length ▸ (climbs_of_passes forward table passes).length_le

theorem exists_labels_of_comes (comes : i.Comes tokens (.waiting job)) :
    ∃ labels, Labels.ofTokens? tokens = some labels := by
  obtain ⟨resolved, -⟩ := continues_of_comes comes i.host
  obtain ⟨labels, table, -⟩ := Option.map_eq_some_iff.1 resolved
  exact ⟨labels, table⟩

theorem steps_runTokens_le (forward : ForwardOnly tokens) (i : Interpreter σ) :
    (i.runTokens tokens).2.steps ≤ (ofTokens tokens).length := by
  cases table : Labels.ofTokens? tokens with
  | some labels => exact (i.tells_runTokens tokens).le forward table
  | none =>
    rw [runTokens_of_unresolved table]
    exact Nat.zero_le _

theorem steps_advance_le (forward : ForwardOnly tokens) (comes : i.Comes tokens (.waiting job))
    (host : σ) : (advance job host).2.steps ≤ (ofTokens tokens).length := by
  obtain ⟨labels, table⟩ := exists_labels_of_comes comes
  exact (continues_of_comes comes host).tells.le forward table

theorem limit_le_of_exceeds (forward : ForwardOnly tokens) {failure : Failure}
    (comes : i.Comes tokens (.failed failure)) {bound : Nat}
    (exceeded : failure.cause = .limitExceeded bound) :
    Program.limit ≤ (ofTokens tokens).length := by
  rcases fails_of_comes comes with ⟨-, rfl⟩ |
    ⟨program, count, machine, host, resolved, -, course, fails⟩
  · contradiction
  · obtain ⟨last, -, calls, next, after, done⟩ := fails.limitExceeded_iff.1 ⟨bound, exceeded⟩
    obtain ⟨labels, table, -⟩ := Option.map_eq_some_iff.1 resolved
    have whole := tells_of_course resolved (course.done done)
    rw [last] at whole
    exact whole.le forward table

/-- On a stream whose jumps to labels that are defined lead forward, whatever a run reads and
however often it waits, it passes instructions of the stream in their order, so none of them twice.
The steps that are told of it are the instructions that it has passed, at most as many as the
stream has, and one of at most 9999 instructions does not use the budget up. -/
theorem runTokens_forward (forward : ForwardOnly tokens) (i : Interpreter σ) :
    (∀ labels passed machine host, Labels.ofTokens? tokens = some labels →
      Program.Passes ⟨tokens, labels⟩ i.start i.host passed machine host →
      passed.Nodup ∧ passed ⊆ (ofTokens tokens).map Placed.address ∧
        (machine.cursor :: passed).Pairwise (· > ·)) ∧
    (i.Tells tokens (i.runTokens tokens).2.steps ∧
      (i.runTokens tokens).2.steps ≤ (ofTokens tokens).length) ∧
    (∀ job (host : σ), i.Comes tokens (.waiting job) →
      i.Tells tokens (advance job host).2.steps ∧
        (advance job host).2.steps ≤ (ofTokens tokens).length) ∧
    ((ofTokens tokens).length ≤ 9999 → ∀ failure bound, i.Comes tokens (.failed failure) →
      failure.cause ≠ .limitExceeded bound) := by
  refine ⟨?_, ⟨i.tells_runTokens tokens, steps_runTokens_le forward i⟩, ?_, ?_⟩
  · intro labels passed machine host table passes
    have climbs := climbs_of_passes forward table passes
    exact ⟨climbs.nodup, climbs.instructions, climbs.descending⟩
  · intro job host comes
    exact ⟨(continues_of_comes comes host).tells, steps_advance_le forward comes host⟩
  · intro short failure bound comes exceeded
    have long := limit_le_of_exceeds forward comes exceeded
    have limit : Program.limit = 10000 := rfl
    omega

theorem runTokens_forward_after_wait :
    ForwardOnly [17, 1, 5, 7, 16, 1, 3, 21, 9, 14] ∧
    (new (Channel.new 1 none)).Comes [17, 1, 5, 7, 16, 1, 3, 21, 9, 14]
      (.waiting ⟨⟨[17, 1, 5, 7, 16, 1, 3, 21, 9, 14], ⟨[(1, 5)]⟩⟩, ⟨⟨6, .empty⟩, ⟨[.run]⟩⟩, 9998⟩) ∧
    (∃ passed machine host, Program.Passes ⟨[17, 1, 5, 7, 16, 1, 3, 21, 9, 14], ⟨[(1, 5)]⟩⟩
      ⟨⟨0, .empty⟩, ⟨[.run]⟩⟩ (Channel.new 1 none) passed machine host ∧
        passed.length = 3 ∧ passed.Nodup) ∧
    (new (Channel.new 1 none)).Comes [17, 1, 5, 7, 16, 1, 3, 21, 9, 14]
      (.failed ⟨.stackUnderflow .div ⟨2, 1⟩, [.run, .instruction .div 9]⟩) := by
  have forward : ForwardOnly [17, 1, 5, 7, 16, 1, 3, 21, 9, 14] := by decide +kernel
  have table : Labels.ofTokens? [17, 1, 5, 7, 16, 1, 3, 21, 9, 14] = some ⟨[(1, 5)]⟩ := by
    decide +kernel
  have late : ((new (Channel.new 1 none)).runTokens [17, 1, 5, 7, 16, 1, 3, 21, 9, 14]).1 =
      .waiting ⟨⟨[17, 1, 5, 7, 16, 1, 3, 21, 9, 14], ⟨[(1, 5)]⟩⟩, ⟨⟨6, .empty⟩, ⟨[.run]⟩⟩,
        9998⟩ := by
    decide +kernel
  have waits : (new (Channel.new 1 none)).Comes [17, 1, 5, 7, 16, 1, 3, 21, 9, 14]
      (.waiting ⟨⟨[17, 1, 5, 7, 16, 1, 3, 21, 9, 14], ⟨[(1, 5)]⟩⟩, ⟨⟨6, .empty⟩, ⟨[.run]⟩⟩,
        9998⟩) :=
    late ▸ .first
  have failed : (advance ⟨⟨[17, 1, 5, 7, 16, 1, 3, 21, 9, 14], ⟨[(1, 5)]⟩⟩,
      ⟨⟨6, .empty⟩, ⟨[.run]⟩⟩, 9998⟩ ((Channel.new 1 none).enqueue "A")).1 =
        .failed ⟨.stackUnderflow .div ⟨2, 1⟩, [.run, .instruction .div 9]⟩ := by
    decide +kernel
  have steps : (advance ⟨⟨[17, 1, 5, 7, 16, 1, 3, 21, 9, 14], ⟨[(1, 5)]⟩⟩,
      ⟨⟨6, .empty⟩, ⟨[.run]⟩⟩, 9998⟩ ((Channel.new 1 none).enqueue "A")).2.steps = 3 := by
    decide +kernel
  obtain ⟨once, -, resumed, -⟩ := runTokens_forward forward (new (Channel.new 1 none))
  obtain ⟨passed, machine, host, passes, length⟩ :=
    (resumed _ ((Channel.new 1 none).enqueue "A") waits).1 _ table
  refine ⟨forward, waits, ⟨passed, machine, host, passes, length.trans steps, ?_⟩, ?_⟩
  · exact (once _ passed machine host table passes).1
  · exact failed ▸ waits.again ((Channel.new 1 none).enqueue "A")

end Interpreter

end AwaLang
