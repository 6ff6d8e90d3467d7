import AwaLang.Host.Buffer
import AwaLang.Proofs.Listing.Entries
import AwaLang.Proofs.Machine.Alignment

namespace AwaLang

open Instruction Text

namespace Listing

def ShowsWords (tokens : List Token) (address : Nat) (words : List (List Char)) : Prop :=
  ∃ marked, Shows tokens ⟨address, marked, words⟩

theorem showsWords_of_mem {tokens : List Token} {address : Nat} {instruction : Instruction}
    (member : ⟨address, instruction⟩ ∈ ofTokens tokens) :
    ShowsWords tokens address (words instruction) := by
  have shown := shows_entry member
  exact ⟨_, shown⟩

theorem exists_shows_label {tokens : List Token} {placed : Placed} {label : Token}
    (member : placed ∈ ofTokens tokens) (shape : placed.instruction = .applied .lbl label) :
    ∃ marked, Shows tokens ⟨placed.address, marked, [Opcode.spelling .lbl, numeral label]⟩ ∧
      (marked = true ↔ ∃ jump ∈ ofTokens tokens, ∃ op,
        op.isJump = true ∧ jump.instruction = .applied op label) := by
  have shown := shows_entry member
  rw [entry, shape] at shown
  refine ⟨_, shown, ?_⟩
  rw [← marked_entry_iff shape, entry, shape]

theorem shows_label_of_jump {tokens : List Token} {placed jump : Placed} {label : Token}
    {op : Opcode} (member : placed ∈ ofTokens tokens)
    (shape : placed.instruction = .applied .lbl label) (inside : jump ∈ ofTokens tokens)
    (jumps : op.isJump = true) (refers : jump.instruction = .applied op label) :
    Shows tokens ⟨placed.address, true, [Opcode.spelling .lbl, numeral label]⟩ := by
  obtain ⟨marked, shown, marks⟩ := exists_shows_label member shape
  rwa [marks.2 ⟨jump, inside, op, jumps, refers⟩] at shown

end Listing

variable {σ : Type} [Host σ]

/-- A run can be followed on the listing. The lines of labels are marked exactly if some jump refers
to them. At every operation that a run comes to, one line of the listing has its address, and shows
the mnemonic of the operation that is performed and the parameter that it is performed with. A jump
that is taken goes on behind a marked line, unless its label is not defined. -/
theorem dispatched_shown (i : Interpreter σ) (tokens : List Token) :
    (∀ placed ∈ ofTokens tokens, ∀ label, placed.instruction = .applied .lbl label →
      ∃ marked,
        Listing.Shows tokens ⟨placed.address, marked, [Opcode.spelling .lbl, numeral label]⟩ ∧
        (marked = true ↔ ∃ jump ∈ ofTokens tokens, ∃ op,
          op.isJump = true ∧ jump.instruction = .applied op label)) ∧
    ∀ job machine, i.prepare tokens = .ok job → job.Visits σ machine →
      (∀ token op, tokens[machine.cursor]? = some token → Opcode.decode token = some op →
        (op.takesParameter = false →
          Listing.ShowsWords tokens machine.cursor [op.spelling] ∧
          ∀ host : σ, job.program.turn machine host =
            Turn.ofEffect (machine.enter (.instruction op machine.cursor)) host
              (job.program.perform op 0 (machine.cursor + 1) machine.abyss)) ∧
        (∀ parameter, op.takesParameter = true → tokens[machine.cursor + 1]? = some parameter →
          Listing.ShowsWords tokens machine.cursor [op.spelling, numeral parameter] ∧
          ∀ host : σ, job.program.turn machine host =
            Turn.ofEffect (machine.enter (.instruction op machine.cursor)) host
              (job.program.perform op parameter (machine.cursor + 2) machine.abyss)) ∧
        (op.takesParameter = true → tokens[machine.cursor + 1]? = none →
          Listing.ShowsWords tokens machine.cursor [op.spelling, "<missing>".toList] ∧
          ∀ host : σ, job.program.turn machine host =
            .failed ⟨.missingParameter op, [.run, .instruction op machine.cursor]⟩
              (machine.enter (.instruction op machine.cursor)) host)) ∧
      ∀ op label (host : σ), at? tokens machine.cursor = some (.applied op label) →
        op.isJump = true → op.jumps machine.abyss = .ok true → ∃ next,
          job.program.turn machine host =
            .done (machine.calls.push (.instruction op machine.cursor))
              { machine with cursor := next } host ∧
          ((∃ address, next = address + 2 ∧
              Listing.Shows tokens ⟨address, true, [Opcode.spelling .lbl, numeral label]⟩) ∨
            next = machine.cursor + 2 ∧
              ∀ placed ∈ ofTokens tokens, placed.instruction ≠ .applied .lbl label) := by
  refine ⟨fun placed member label shape => Listing.exists_shows_label member shape, ?_⟩
  intro job machine prepared visits
  obtain ⟨resolved, aligned⟩ := aligned_of_visits prepared visits
  have balanced : machine.calls = ⟨[.run]⟩ := by
    obtain ⟨-, front, -⟩ := Interpreter.prepare_eq_ok prepared
    rw [visits.reaches.calls, front, i.start_eq]
  have own : job.program.tokens = tokens := by
    obtain ⟨labels, -, same⟩ := Option.map_eq_some_iff.1 resolved
    rw [← same]
  have shown {instruction : Instruction} (found : at? tokens machine.cursor = some instruction) :
      Listing.ShowsWords tokens machine.cursor (Listing.words instruction) :=
    Listing.showsWords_of_mem (aligned.exists_placed found)
  constructor
  · intro token op present decoded
    refine ⟨?_, ?_, ?_⟩
    · intro alone
      have found := at?_eq_plain present decoded alone
      refine ⟨shown found, ?_⟩
      rw [← own] at found
      exact Program.turn_eq found rfl
    · intro parameter takes behind
      have found := at?_eq_applied present decoded takes behind
      refine ⟨shown found, ?_⟩
      rw [← own] at found
      exact Program.turn_eq found rfl
    · intro takes ended
      have found := at?_eq_truncated present decoded takes ended
      refine ⟨shown found, ?_⟩
      intro host
      rw [← own] at found
      rw [Program.turn, found]
      dsimp only [Machine.enter]
      rw [balanced]
      rfl
  · intro op label host found jump taken
    refine ⟨_, turn_of_jumps resolved found jump taken host, ?_⟩
    cases last : Labels.lastDefinition? tokens label with
    | none => exact .inr ⟨rfl, Labels.lastDefinition?_eq_none_iff.1 last⟩
    | some placed =>
      obtain ⟨member, shape⟩ := Labels.lastDefinition?_spec last
      exact .inl ⟨placed.address, rfl, Listing.shows_label_of_jump member shape
        (aligned.exists_placed found) jump rfl⟩

/-- A jump, written with a token above 31, to the second of two definitions; the first one and a
token that names no operation are never come to. -/
theorem dispatched_shown_twice_defined :
    ∃ job,
      (Interpreter.new (Buffer.ofLines [])).prepare [49, 1, 16, 1, 23, 16, 1, 5, 16] = .ok job ∧
      job.Visits Buffer ⟨⟨0, .empty⟩, ⟨[.run]⟩⟩ ∧
      Listing.ShowsWords [49, 1, 16, 1, 23, 16, 1, 5, 16] 0 [['j', 'm', 'p'], ['1']] ∧
      ∃ address,
        job.program.turn ⟨⟨0, .empty⟩, ⟨[.run]⟩⟩ (Buffer.ofLines []) =
          .done ⟨[.run, .instruction .jmp 0]⟩ ⟨⟨address + 2, .empty⟩, ⟨[.run]⟩⟩
            (Buffer.ofLines []) ∧
        Listing.Shows [49, 1, 16, 1, 23, 16, 1, 5, 16]
          ⟨address, true, [['l', 'b', 'l'], ['1']]⟩ := by
  have prepared : (Interpreter.new (Buffer.ofLines [])).prepare [49, 1, 16, 1, 23, 16, 1, 5, 16] =
      .ok ⟨⟨[49, 1, 16, 1, 23, 16, 1, 5, 16], ⟨[(1, 6)]⟩⟩, ⟨⟨0, .empty⟩, ⟨[.run]⟩⟩, 9999⟩ := by
    decide +kernel
  have visits : Job.Visits Buffer
      ⟨⟨[49, 1, 16, 1, 23, 16, 1, 5, 16], ⟨[(1, 6)]⟩⟩, ⟨⟨0, .empty⟩, ⟨[.run]⟩⟩, 9999⟩
      ⟨⟨0, .empty⟩, ⟨[.run]⟩⟩ :=
    @Job.Visits.trail Buffer _ _ (Buffer.ofLines []) _ (by decide +kernel)
  have defined : ⟨5, .applied .lbl 1⟩ ∈ ofTokens [49, 1, 16, 1, 23, 16, 1, 5, 16] := by decide
  obtain ⟨-, follows⟩ := dispatched_shown (Interpreter.new (Buffer.ofLines []))
    [49, 1, 16, 1, 23, 16, 1, 5, 16]
  obtain ⟨operations, jumps⟩ := follows _ _ prepared visits
  obtain ⟨-, shown, -⟩ := operations 49 .jmp rfl (by decide)
  obtain ⟨next, turn, landed⟩ := jumps .jmp 1 (Buffer.ofLines []) (by decide) rfl rfl
  refine ⟨_, prepared, visits, (shown 1 rfl rfl).1, ?_⟩
  rcases landed with ⟨address, rfl, marked⟩ | ⟨-, undefined⟩
  · exact ⟨address, turn, marked⟩
  · exact absurd rfl (undefined _ defined)

end AwaLang
