import AwaLang.Proofs.Bubble.Depth
import AwaLang.Proofs.Interpreter.Normal
import AwaLang.Proofs.Machine.Forward

namespace AwaLang

def divisions (tokens : List Token) (addresses : List Nat) : Nat :=
  addresses.countP fun address => tokens[address]?.bind Opcode.decode = some .div

def Abyss.Nests (levels : Nat) (abyss : Abyss) : Prop :=
  ∀ b ∈ abyss.topFirst, b.depth ≤ 1 + levels

theorem Abyss.nests_empty (levels : Nat) : empty.Nests levels :=
  all_empty fun b => b.depth ≤ 1 + levels

theorem Abyss.Nests.of_le {abyss : Abyss} {few many : Nat} (nests : abyss.Nests few)
    (le : few ≤ many) : abyss.Nests many :=
  fun b member => Nat.le_trans (nests b member) (Nat.add_le_add_left le 1)

theorem Opcode.levels_of_arithmetic? {op : Opcode} {arithmetic : ArithmeticOp} (other : op ≠ .div)
    (does : op.arithmetic? = some arithmetic) : arithmetic.levels = 0 := by
  cases op with
  | add | sub | mul => exact Option.some.inj does ▸ rfl
  | div => exact absurd rfl other
  | _ => contradiction

namespace Program

variable {program : Program} {op : Opcode} {parameter : Token} {next levels : Nat} {abyss : Abyss}

theorem within_nests (nests : abyss.Nests levels) (other : op ≠ .div) :
    (program.perform op parameter next abyss).Within (Abyss.Nests levels) := by
  apply within_of_closed (Bubble.closed_depth_le levels) _ nests
  intro arithmetic does a b result first second combined
  have bound := Bubble.depth_combine_le first second combined
  rwa [Opcode.levels_of_arithmetic? other does] at bound

theorem within_nests_div (nests : abyss.Nests levels) :
    (program.perform .div parameter next abyss).Within (Abyss.Nests (levels + 1)) := by
  have more : abyss.Nests (levels + 1) := nests.of_le (Nat.le_succ levels)
  apply Effect.within_calculate more
  intro a b rest popped
  obtain ⟨first, second, -⟩ := Abyss.All.of_popTwo nests popped
  obtain ⟨-, -, others⟩ := Abyss.All.of_popTwo more popped
  refine ⟨others, ?_⟩
  intro arithmetic result does combined
  obtain rfl := Option.some.inj does
  exact others.push (Bubble.depth_combine_le first second combined)

end Program

variable {σ : Type} [Host σ] {tokens : List Token} {labels : Labels} {levels : Nat}

theorem nests_of_turn {machine next : Machine} {calls : CallStack} {host after : σ}
    (nests : machine.abyss.Nests levels)
    (done : Program.turn ⟨tokens, labels⟩ machine host = .done calls next after) :
    next.abyss.Nests (levels + divisions tokens [machine.cursor]) := by
  obtain ⟨instruction, op, parameter, found, performs, -, -, yields⟩ := Program.yields_of_turn done
  obtain ⟨token, present, decoded⟩ := Instruction.exists_token_of_operation? found performs
  change tokens[machine.cursor]? = some token at present
  by_cases division : op = .div
  · subst division
    have one : divisions tokens [machine.cursor] = 1 := by
      simp [divisions, present, decoded]
    rw [one]
    exact (Program.within_nests_div nests).of_yields yields
  · exact ((Program.within_nests nests division).of_yields yields).of_le (Nat.le_add_right _ _)

theorem nests_of_passes {start machine : Machine} {origin host : σ} {passed : List Nat}
    (nests : start.abyss.Nests levels)
    (passes : Program.Passes ⟨tokens, labels⟩ start origin passed machine host) :
    machine.abyss.Nests (levels + divisions tokens passed) := by
  induction passes with
  | start => exact nests
  | waited before turn later ih => exact ih
  | @done passed machine next calls host after before turn ih =>
    have further := nests_of_turn ih turn
    have count : divisions tokens (machine.cursor :: passed) =
        divisions tokens passed + divisions tokens [machine.cursor] := by
      rw [divisions, ← List.singleton_append, List.countP_append, Nat.add_comm]
      rfl
    rwa [count, ← Nat.add_assoc]

theorem Abyss.Nests.of_failed {machine left : Machine} {host after : σ} {failure : Failure}
    (nests : machine.abyss.Nests levels)
    (failed : Program.turn ⟨tokens, labels⟩ machine host = .failed failure left after) :
    left.abyss.Nests levels :=
  fun b member => nests b ((Program.suffix_of_failed failed).subset member)

namespace Interpreter

/-- The divisions that show in what a run finds in the abyss of an interpreter. There is nothing to
be found on a new interpreter or after a run that came to its end; what is there has been left by
runs that were given up one after another. -/
inductive Inherits : Interpreter σ → Nat → Prop
  | none {i : Interpreter σ} (empty : i.abyss = .empty) : Inherits i 0
  | dropped {i : Interpreter σ} {earlier : Nat} {tokens : List Token} {labels : Labels}
      {passed : List Nat} {machine : Machine} {origin host : σ} (before : Inherits i earlier)
      (table : Labels.ofTokens? tokens = some labels)
      (passes : Program.Passes ⟨tokens, labels⟩ i.start origin passed machine host)
      (after : σ) (calls : CallStack) (steps : Nat) :
      Inherits ⟨after, machine.abyss, calls, steps⟩ (earlier + divisions tokens passed)

variable {i : Interpreter σ} {earlier : Nat}

theorem Inherits.outside (inherits : i.Inherits earlier) (host : σ) :
    Inherits { i with host := host } earlier := by
  cases inherits with
  | none empty => exact .none empty
  | dropped before table passes after calls steps =>
    exact .dropped before table passes host calls steps

theorem Reachable.exists_inherits (reachable : i.Reachable) : ∃ earlier, i.Inherits earlier := by
  induction reachable with
  | new host => exact ⟨0, .none rfl⟩
  | outside before host ih =>
    obtain ⟨earlier, inherits⟩ := ih
    exact ⟨earlier, inherits.outside host⟩
  | @ran i before submission ih =>
    rcases i.abyss_run submission with empty | same
    · exact ⟨0, .none empty⟩
    · exact same.symm ▸ ih
  | resumed before prepared resumes host ih => exact ⟨0, .none (abyss_advance _ host)⟩
  | @dropped i tokens job machine before prepared visits host calls steps ih =>
    obtain ⟨earlier, inherits⟩ := ih
    obtain ⟨resolved, front, -⟩ := prepare_eq_ok prepared
    obtain ⟨labels, table, program⟩ := Option.map_eq_some_iff.1 resolved
    obtain ⟨origin, passed, after, passes⟩ := visits.exists_passes
    rw [← program, front] at passes
    exact ⟨_, inherits.dropped table passes host calls steps⟩

theorem Inherits.nests (inherits : i.Inherits earlier) : i.abyss.Nests earlier := by
  induction inherits with
  | none empty => exact empty.symm ▸ Abyss.nests_empty 0
  | dropped before table passes after calls steps ih => exact nests_of_passes ih passes

/-- Whatever was run before, and whatever a run reads and however often it waits, at every
instruction and after every failure in the middle of one each bubble in the abyss is nested at most
one level deeper than the divisions so far: those of the run itself and, if runs were given up
before it with bubbles in the abyss, theirs. Without a division each bubble is a scalar or a double
of scalars. -/
theorem depth_le_of_reachable (reachable : i.Reachable) :
    (∃ earlier, i.Inherits earlier) ∧
    ∀ earlier, i.Inherits earlier →
      (∀ b ∈ i.abyss.topFirst, b.depth ≤ 1 + earlier) ∧
      ∀ tokens labels (origin host : σ) passed machine, Labels.ofTokens? tokens = some labels →
        Program.Passes ⟨tokens, labels⟩ i.start origin passed machine host →
        (∀ b ∈ machine.abyss.topFirst, b.depth ≤ 1 + (earlier + divisions tokens passed)) ∧
        (∀ failure left after,
          Program.turn ⟨tokens, labels⟩ machine host = .failed failure left after →
          ∀ b ∈ left.abyss.topFirst, b.depth ≤ 1 + (earlier + divisions tokens passed)) ∧
        (earlier + divisions tokens passed = 0 → ∀ b ∈ machine.abyss.topFirst,
          (∃ n, b = .scalar n) ∨ ∃ values : List Int, b = .double (values.map .scalar)) := by
  refine ⟨reachable.exists_inherits, ?_⟩
  intro earlier inherits
  have start := inherits.nests
  refine ⟨start, ?_⟩
  intro tokens labels origin host passed machine table passes
  have nests : machine.abyss.Nests (earlier + divisions tokens passed) :=
    nests_of_passes start passes
  refine ⟨nests, ?_, ?_⟩
  · intro failure left after failed
    exact nests.of_failed failed
  · intro none b member
    have flat := nests b member
    rw [none] at flat
    exact Bubble.depth_le_one_iff.1 flat

/-- A number divided by a pair that two numbers were merged to: one level from merging and one from
the division. -/
theorem depth_le_of_reachable_divided_pair :
    (new (Buffer.ofLines [])).Reachable ∧ (new (Buffer.ofLines [])).Inherits 0 ∧
    Program.Passes ⟨[5, 1, 5, 2, 10, 5, 7, 14], .empty⟩ ⟨⟨0, .empty⟩, ⟨[.run]⟩⟩
      (Buffer.ofLines []) [7, 5, 4, 2, 0]
      ⟨⟨8, ⟨[.double [.ofInts [0, 7], .ofInts [1, 3]]]⟩⟩, ⟨[.run]⟩⟩ (Buffer.ofLines []) ∧
    divisions [5, 1, 5, 2, 10, 5, 7, 14] [7, 5, 4, 2, 0] = 1 ∧
    (Bubble.double [.ofInts [0, 7], .ofInts [1, 3]]).depth = 2 ∧
    (Bubble.double [.ofInts [0, 7], .ofInts [1, 3]]).depth ≤
      1 + (0 + divisions [5, 1, 5, 2, 10, 5, 7, 14] [7, 5, 4, 2, 0]) := by
  have front : Program.Passes ⟨[5, 1, 5, 2, 10, 5, 7, 14], .empty⟩ ⟨⟨0, .empty⟩, ⟨[.run]⟩⟩
      (Buffer.ofLines []) [] ⟨⟨0, .empty⟩, ⟨[.run]⟩⟩ (Buffer.ofLines []) := .start
  have lower := front.done
    (rfl : _ = Turn.done _ ⟨⟨2, ⟨[.scalar 1]⟩⟩, ⟨[.run]⟩⟩ _)
  have upper := lower.done
    (rfl : _ = Turn.done _ ⟨⟨4, ⟨[.scalar 2, .scalar 1]⟩⟩, ⟨[.run]⟩⟩ _)
  have merged := upper.done
    (rfl : _ = Turn.done _ ⟨⟨5, ⟨[.ofInts [1, 2]]⟩⟩, ⟨[.run]⟩⟩ _)
  have dividend := merged.done
    (rfl : _ = Turn.done _ ⟨⟨7, ⟨[.scalar 7, .ofInts [1, 2]]⟩⟩, ⟨[.run]⟩⟩ _)
  have divided := dividend.done
    (rfl : _ = Turn.done _ ⟨⟨8, ⟨[.double [.ofInts [0, 7], .ofInts [1, 3]]]⟩⟩, ⟨[.run]⟩⟩ _)
  have reachable : (new (Buffer.ofLines [])).Reachable := .new _
  have inherits : (new (Buffer.ofLines [])).Inherits 0 := .none rfl
  have bounds := (depth_le_of_reachable reachable).2 0 inherits
  have table : Labels.ofTokens? [5, 1, 5, 2, 10, 5, 7, 14] = some .empty := rfl
  have bound := (bounds.2 _ _ _ _ _ _ table divided).1 _ (List.mem_singleton_self _)
  exact ⟨reachable, inherits, divided, rfl, rfl, bound⟩

end Interpreter

end AwaLang
