import AwaLang.Host.Buffer
import AwaLang.Proofs.Labels
import AwaLang.Proofs.Machine.Runs

namespace AwaLang

open Instruction

def Aligned (tokens : List Token) (index : Nat) : Prop :=
  tokens.length ≤ index ∨ ∃ placed ∈ ofTokens tokens, placed.address = index

theorem aligned_zero (tokens : List Token) : Aligned tokens 0 := by
  rcases Nat.eq_zero_or_pos tokens.length with empty | inside
  · exact .inl (Nat.le_of_eq empty)
  · exact .inr (exists_mem_placeFrom inside 0)

theorem aligned_following {tokens : List Token} {placed : Placed}
    (member : placed ∈ ofTokens tokens) :
    Aligned tokens (placed.address + placed.instruction.length) := by
  rcases next_of_mem_placeFrom member with next | ended
  · exact .inr next
  · rw [Nat.zero_add] at ended
    exact .inl ended

theorem Aligned.exists_placed {tokens : List Token} {index : Nat} {instruction : Instruction}
    (aligned : Aligned tokens index) (found : at? tokens index = some instruction) :
    ⟨index, instruction⟩ ∈ ofTokens tokens := by
  rcases aligned with ended | ⟨placed, member, rfl⟩
  · exact absurd (lt_of_at?_eq_some found) (Nat.not_lt.2 ended)
  · rw [at?_of_mem_ofTokens member, Option.some.injEq] at found
    rw [← found]
    exact member

theorem goto_eq {tokens : List Token} {labels : Labels}
    (resolved : Labels.ofTokens? tokens = some labels) (label : Token) (next : Nat) :
    labels.goto label next =
      (Labels.lastDefinition? tokens label).elim next fun placed => placed.address + 2 := by
  rw [Labels.goto, Labels.find?_ofTokens resolved]
  cases Labels.lastDefinition? tokens label <;> rfl

theorem aligned_goto {tokens : List Token} {labels : Labels}
    (resolved : Labels.ofTokens? tokens = some labels) {next : Nat} (aligned : Aligned tokens next)
    (label : Token) : Aligned tokens (labels.goto label next) := by
  rw [goto_eq resolved]
  cases last : Labels.lastDefinition? tokens label with
  | none => exact aligned
  | some placed =>
    obtain ⟨member, shape⟩ := Labels.lastDefinition?_spec last
    have following := aligned_following member
    rwa [shape] at following

/-- Where an operation can lead: on, to the end, or to a label if it is a jump. -/
theorem cursor_of_yields {program : Program} {op : Opcode} {parameter : Token} {next : Nat}
    {abyss : Abyss} {state : State}
    (yields : (program.perform op parameter next abyss).Yields state) :
    state.cursor = next ∨ state.cursor = program.tokens.length ∨
      op.isJump = true ∧ state.cursor = program.labels.goto parameter next := by
  cases op with
  | nop | lbl | blo => exact .inl (congrArg State.cursor yields)
  | trm => exact .inr (.inl (congrArg State.cursor yields))
  | prn | pr1 =>
    rw [Program.perform] at yields
    obtain ⟨b, rest, -, rfl⟩ := Effect.yields_print yields
    exact .inl rfl
  | red | r3d =>
    rw [Program.perform] at yields
    obtain ⟨line, b, -, rfl⟩ := Effect.yields_input yields
    exact .inl rfl
  | sbm | pop | dpl | srn | mrg | cnt =>
    rw [Program.perform] at yields
    obtain ⟨after, -, rfl⟩ := Effect.yields_rearrange yields
    exact .inl rfl
  | add | sub | mul | div =>
    rw [Program.perform] at yields
    obtain ⟨a, b, rest, arithmetic, result, -, -, -, rfl⟩ := Effect.yields_calculate yields
    exact .inl rfl
  | jmp | eql | lss | gr8 | eqz =>
    rw [Program.perform] at yields
    obtain ⟨taken, -, rfl⟩ := Effect.yields_branch yields
    cases taken with
    | true => exact .inr (.inr ⟨rfl, rfl⟩)
    | false => exact .inl rfl

variable {σ : Type} [Host σ]

theorem aligned_of_turn {tokens : List Token} {program : Program}
    (resolved : Program.ofTokens? tokens = some program) {machine next : Machine}
    {calls : CallStack}
    {host after : σ} (aligned : Aligned tokens machine.cursor)
    (done : program.turn machine host = .done calls next after) : Aligned tokens next.cursor := by
  obtain ⟨labels, table, rfl⟩ := Option.map_eq_some_iff.1 resolved
  obtain ⟨instruction, op, parameter, found, -, -, -, yields⟩ := Program.yields_of_turn done
  have following := aligned_following (aligned.exists_placed found)
  rcases cursor_of_yields yields with on | ended | ⟨-, label⟩
  · exact on ▸ following
  · exact .inl (Nat.le_of_eq ended.symm)
  · exact label ▸ aligned_goto table following parameter

theorem aligned_of_reaches {tokens : List Token} {program : Program}
    (resolved : Program.ofTokens? tokens = some program) {start machine : Machine}
    (aligned : Aligned tokens start.cursor) (reaches : program.Reaches σ start machine) :
    Aligned tokens machine.cursor := by
  induction reaches with
  | refl => exact aligned
  | turn before done ih => exact aligned_of_turn resolved ih done

theorem aligned_of_visits {i : Interpreter σ} {tokens : List Token} {job : Job} {machine : Machine}
    (prepared : i.prepare tokens = .ok job) (visits : job.Visits σ machine) :
    Program.ofTokens? tokens = some job.program ∧ Aligned tokens machine.cursor := by
  obtain ⟨resolved, front, -⟩ := Interpreter.prepare_eq_ok prepared
  have start : Aligned tokens job.machine.cursor := front ▸ aligned_zero tokens
  exact ⟨resolved, aligned_of_reaches resolved start visits.reaches⟩

theorem turn_of_jumps {tokens : List Token} {program : Program}
    (resolved : Program.ofTokens? tokens = some program) {machine : Machine} {op : Opcode}
    {label : Token} (found : at? tokens machine.cursor = some (.applied op label))
    (jump : op.isJump) (taken : op.jumps machine.abyss = .ok true) (host : σ) :
    program.turn machine host =
      .done (machine.calls.push (.instruction op machine.cursor))
        { machine with
          cursor := (Labels.lastDefinition? tokens label).elim (machine.cursor + 2) fun placed =>
            placed.address + 2 } host := by
  obtain ⟨labels, table, rfl⟩ := Option.map_eq_some_iff.1 resolved
  have performs : Program.perform ⟨tokens, labels⟩ op label (machine.cursor + 2) machine.abyss =
      .branch labels op label (machine.cursor + 2) machine.abyss := by
    cases op <;> first | rfl | contradiction
  rw [Program.turn_eq found rfl, Instruction.length, performs, Effect.branch, taken,
    ← goto_eq table, Turn.ofEffect]
  simp [Machine.enter]

/-- Whatever a run reads and wherever it jumps, it looks for instructions only where the walk from
the front finds them, or behind the end; a jump that is taken leads behind the last definition of
its label. So it never performs a parameter, nor takes an operation for one. -/
theorem dispatch_aligned {i : Interpreter σ} {tokens : List Token} {job : Job} {machine : Machine}
    (prepared : i.prepare tokens = .ok job) (visits : job.Visits σ machine) :
    (tokens.length ≤ machine.cursor ∨
      ∃ placed ∈ ofTokens tokens, placed.address = machine.cursor ∧
        at? tokens machine.cursor = some placed.instruction) ∧
    (∀ (op : Opcode) (label : Token) (host : σ),
      at? tokens machine.cursor = some (.applied op label) → op.isJump →
      op.jumps machine.abyss = .ok true →
      job.program.turn machine host =
        .done (machine.calls.push (.instruction op machine.cursor))
          { machine with
            cursor := (Labels.lastDefinition? tokens label).elim (machine.cursor + 2) fun placed =>
              placed.address + 2 } host) ∧
    ∀ instruction, at? tokens machine.cursor = some instruction →
      instruction.roles <+: ((Role.assign .opcode tokens).map Prod.fst).drop machine.cursor := by
  obtain ⟨resolved, aligned⟩ := aligned_of_visits prepared visits
  refine ⟨?_, ?_, ?_⟩
  · rcases aligned with ended | ⟨placed, member, place⟩
    · exact .inl ended
    · exact .inr ⟨placed, member, place, place ▸ at?_of_mem_ofTokens member⟩
  · intro op label host found jump taken
    exact turn_of_jumps resolved found jump taken host
  · intro instruction found
    obtain ⟨index, place, roles⟩ := roles_of_mem_placeFrom (aligned.exists_placed found)
    rw [Nat.zero_add] at place
    subst place
    exact roles

theorem dispatch_aligned_twice_defined :
    ∃ job,
      (Interpreter.new (Buffer.ofLines [])).prepare [17, 1, 16, 1, 31, 16, 1, 5, 31] = .ok job ∧
      job.Visits Buffer ⟨⟨7, .empty⟩, ⟨[.run]⟩⟩ ∧
      at? [17, 1, 16, 1, 31, 16, 1, 5, 31] 7 = some (.applied .blo 31) ∧
      [Role.opcode, .parameter] <+:
        ((Role.assign .opcode [17, 1, 16, 1, 31, 16, 1, 5, 31]).map Prod.fst).drop 7 := by
  have prepared : (Interpreter.new (Buffer.ofLines [])).prepare [17, 1, 16, 1, 31, 16, 1, 5, 31] =
      .ok ⟨⟨[17, 1, 16, 1, 31, 16, 1, 5, 31], ⟨[(1, 6)]⟩⟩, ⟨⟨0, .empty⟩, ⟨[.run]⟩⟩, 9999⟩ := by
    decide +kernel
  have visits : Job.Visits Buffer
      ⟨⟨[17, 1, 16, 1, 31, 16, 1, 5, 31], ⟨[(1, 6)]⟩⟩, ⟨⟨0, .empty⟩, ⟨[.run]⟩⟩, 9999⟩
      ⟨⟨7, .empty⟩, ⟨[.run]⟩⟩ :=
    @Job.Visits.trail Buffer _ _ (Buffer.ofLines []) _ (by decide +kernel)
  have found : at? [17, 1, 16, 1, 31, 16, 1, 5, 31] 7 = some (.applied .blo 31) := by decide +kernel
  exact ⟨_, prepared, visits, found, (dispatch_aligned prepared visits).2.2 _ found⟩

end AwaLang
