import AwaLang.Proofs.Abyss.Contents
import AwaLang.Proofs.Except
import AwaLang.Proofs.Machine.Runs

/-!
Invariants of the abyss. A property that every operation keeps, be it that the operation goes on or
that it fails, holds wherever a run gets to and however it stops. A property of bubbles is kept if
it is not lost in taking bubbles apart, in putting them together, and in arithmetic.
-/

namespace AwaLang

def Effect.Within (P : Abyss → Prop) : Effect → Prop
  | proceed next => P next.abyss
  | write _ next => P next.abyss
  | read resume => ∀ line next, resume line = .ok next → P next.abyss
  | fail _ abyss => P abyss

namespace Effect

variable {P : Abyss → Prop} {op : Opcode} {next : Nat} {abyss : Abyss}

theorem within_input {bubbleIn : Option String → Except Cause Bubble}
    (pushed : ∀ line b, bubbleIn line = .ok b → P (abyss.push b)) :
    (input next abyss bubbleIn).Within P := by
  intro line state resumed
  obtain ⟨b, made, rfl⟩ := exists_of_map_eq_ok resumed
  exact pushed line b made

theorem within_print {textOf : Bubble → Except Cause String} (held : P abyss)
    (popped : ∀ b rest, abyss.pop = .ok (b, rest) → P rest) :
    (print op next abyss textOf).Within P := by
  unfold print
  split
  · exact held
  · rename_i b rest pop
    split <;> exact popped b rest pop

theorem within_rearrange {result : Except Underflow Abyss} (held : P abyss)
    (arranged : ∀ after, result = .ok after → P after) :
    (rearrange op next abyss result).Within P := by
  cases result with
  | ok after => exact arranged after rfl
  | error underflow => exact held

theorem within_calculate (held : P abyss)
    (popped : ∀ a b rest, abyss.popTwo = .ok (a, b, rest) → P rest ∧
      ∀ arithmetic result, op.arithmetic? = some arithmetic → a.combine arithmetic b = .ok result →
        P (rest.push result)) :
    (calculate op next abyss).Within P := by
  unfold calculate
  split
  · exact held
  · rename_i a b rest pop
    obtain ⟨left, pushed⟩ := popped a b rest pop
    split
    · exact left
    · rename_i arithmetic does
      split
      · rename_i result combined
        exact pushed arithmetic result does combined
      · exact left

theorem within_branch {labels : Labels} {label : Token} (held : P abyss) :
    (branch labels op label next abyss).Within P := by
  unfold branch
  split <;> exact held

theorem exists_ofInts_of_lettersIn {line : Option String} {b : Bubble}
    (made : lettersIn line = .ok b) : ∃ values, b = .ofInts values := by
  unfold lettersIn at made
  split at made
  · rename_i indices found
    exact ⟨indices, (Except.ok.inj made).symm⟩
  · contradiction

theorem exists_scalar_of_numeralIn {line : Option String} {b : Bubble}
    (made : numeralIn line = .ok b) : ∃ n, b = .scalar n := by
  unfold numeralIn at made
  split at made
  · exact ⟨0, (Except.ok.inj made).symm⟩
  · split at made
    · rename_i n spelled
      exact ⟨n, (Except.ok.inj made).symm⟩
    · contradiction

end Effect

theorem Program.within_of_closed {program : Program} {op : Opcode} {parameter : Token} {next : Nat}
    {abyss : Abyss} {P : Bubble → Prop} (closed : Bubble.Closed P)
    (combined : ∀ arithmetic, op.arithmetic? = some arithmetic → ∀ a b result, P a → P b →
      a.combine arithmetic b = .ok result → P result)
    (held : abyss.All P) : (program.perform op parameter next abyss).Within (Abyss.All P) := by
  cases op with
  | nop | lbl | trm => exact held
  | blo => exact held.push (closed.scalar parameter)
  | prn | pr1 =>
    rw [perform]
    apply Effect.within_print held
    intro b rest popped
    exact held.of_pop popped
  | red =>
    apply Effect.within_input
    intro line b made
    obtain ⟨values, rfl⟩ := Effect.exists_ofInts_of_lettersIn made
    exact held.push (closed.ofInts values)
  | r3d =>
    apply Effect.within_input
    intro line b made
    obtain ⟨n, rfl⟩ := Effect.exists_scalar_of_numeralIn made
    exact held.push (closed.scalar n)
  | sbm => exact Effect.within_rearrange held fun after done => held.submerge done
  | pop => exact Effect.within_rearrange held fun after done => held.split closed done
  | dpl => exact Effect.within_rearrange held fun after done => held.duplicate done
  | srn => exact Effect.within_rearrange held fun after done => held.surround closed done
  | mrg => exact Effect.within_rearrange held fun after done => held.merge closed done
  | cnt => exact Effect.within_rearrange held fun after done => held.count closed done
  | add | sub | mul | div =>
    apply Effect.within_calculate held
    intro a b rest popped
    obtain ⟨top, second, others⟩ := held.of_popTwo popped
    refine ⟨others, ?_⟩
    intro arithmetic result does done
    exact others.push (combined arithmetic does a b result top second done)
  | jmp | eql | lss | gr8 | eqz =>
    rw [perform]
    exact Effect.within_branch held

def Program.Keeps (program : Program) (P : Abyss → Prop) : Prop :=
  ∀ (op : Opcode) (parameter : Token) (next : Nat) (abyss : Abyss),
    P abyss → (program.perform op parameter next abyss).Within P

theorem Effect.Within.of_yields {P : Abyss → Prop} {effect : Effect} {next : State}
    (within : effect.Within P) (yields : effect.Yields next) : P next.abyss := by
  cases effect with
  | proceed state | write text state => exact yields ▸ within
  | read resume =>
    obtain ⟨line, resumed⟩ := yields
    exact within line next resumed
  | fail cause left => contradiction

variable {σ : Type} [Host σ] {P : Abyss → Prop}

theorem Turn.within_of_done {machine next : Machine} {calls : CallStack} {host after : σ}
    {effect : Effect} (within : effect.Within P)
    (turn : Turn.ofEffect machine host effect = .done calls next after) : P next.abyss :=
  within.of_yields (Turn.yields_of_done turn).2.2

/-- What a turn that fails leaves is what its effect gives up with, or goes on with if the host
refuses its text; a read leaves the abyss as it was. -/
theorem Turn.left_of_failed {machine left : Machine} {host after : σ} {effect : Effect}
    {failure : Failure} (turn : Turn.ofEffect machine host effect = .failed failure left after) :
    left.abyss = machine.abyss ∨ (∃ cause, effect = .fail cause left.abyss) ∨
      ∃ text next, effect = .write text next ∧ left.abyss = next.abyss := by
  cases effect with
  | proceed state => contradiction
  | fail cause own =>
    obtain ⟨-, rfl, -⟩ := Turn.failed.inj turn
    exact .inr (.inl ⟨cause, rfl⟩)
  | write text state =>
    simp only [ofEffect] at turn
    split at turn
    · contradiction
    · obtain ⟨-, rfl, -⟩ := Turn.failed.inj turn
      exact .inr (.inr ⟨text, state, rfl, rfl⟩)
  | read resume =>
    left
    simp only [ofEffect] at turn
    split at turn
    · split at turn
      · contradiction
      · obtain ⟨-, rfl, -⟩ := Turn.failed.inj turn
        rfl
    · split at turn
      · contradiction
      · obtain ⟨-, rfl, -⟩ := Turn.failed.inj turn
        rfl
    · contradiction
    · obtain ⟨-, rfl, -⟩ := Turn.failed.inj turn
      rfl

theorem Turn.within_of_failed {machine left : Machine} {host after : σ} {effect : Effect}
    {failure : Failure} (held : P machine.abyss) (within : effect.Within P)
    (turn : Turn.ofEffect machine host effect = .failed failure left after) : P left.abyss := by
  rcases Turn.left_of_failed turn with kept | ⟨cause, rfl⟩ | ⟨text, next, rfl, kept⟩
  · exact kept ▸ held
  · exact within
  · exact kept ▸ within

namespace Program

variable {program : Program} {machine next : Machine} {calls : CallStack} {host after : σ}

theorem Keeps.of_done (keeps : program.Keeps P) (held : P machine.abyss)
    (done : program.turn machine host = .done calls next after) : P next.abyss := by
  unfold turn at done
  split at done
  · contradiction
  · contradiction
  · contradiction
  · exact Turn.within_of_done (keeps _ _ _ _ held) done
  · exact Turn.within_of_done (keeps _ _ _ _ held) done

theorem Keeps.of_failed (keeps : program.Keeps P) (held : P machine.abyss) {failure : Failure}
    {left : Machine} (failed : program.turn machine host = .failed failure left after) :
    P left.abyss := by
  have entered (frame : Frame) : P (machine.enter frame).abyss := held
  unfold turn at failed
  split at failed
  · contradiction
  · exact (Turn.failed.inj failed).2.1 ▸ held
  · exact (Turn.failed.inj failed).2.1 ▸ held
  · exact Turn.within_of_failed (entered _) (keeps _ _ _ _ held) failed
  · exact Turn.within_of_failed (entered _) (keeps _ _ _ _ held) failed

theorem Keeps.of_reaches (keeps : program.Keeps P) {start : Machine} (held : P start.abyss)
    (reaches : program.Reaches σ start machine) : P machine.abyss := by
  induction reaches with
  | refl => exact held
  | turn before done ih => exact keeps.of_done ih done

/-- However a run stops, also in the middle of an instruction. -/
theorem Keeps.execute (keeps : program.Keeps P) (held : P machine.abyss) (spare : Nat) :
    P (program.execute spare machine host).abyss := by
  fun_induction program.execute spare machine host with
  | case1 | case3 => exact held
  | case2 spare machine host steps failure left place failed => exact keeps.of_failed held failed
  | case4 machine host calls next place done => exact keeps.of_done held done
  | case5 machine host calls next place done spare ih => exact ih (keeps.of_done held done)

end Program

/-- An effect that is given up, also for a text that the host refuses, leaves no bubble that was not
there before. -/
def Effect.Sheds (abyss : Abyss) : Effect → Prop
  | fail _ left => left.topFirst <:+ abyss.topFirst
  | write _ next => next.abyss.topFirst <:+ abyss.topFirst
  | proceed _ => True
  | read _ => True

namespace Effect

variable {op : Opcode} {next : Nat} {abyss : Abyss}

theorem sheds_print {textOf : Bubble → Except Cause String} :
    (print op next abyss textOf).Sheds abyss := by
  unfold print
  split
  · exact List.suffix_rfl
  · rename_i b rest popped
    have less : rest.topFirst <:+ abyss.topFirst := ⟨[b], (Abyss.topFirst_of_pop popped).symm⟩
    split <;> exact less

theorem sheds_rearrange {result : Except Underflow Abyss} :
    (rearrange op next abyss result).Sheds abyss := by
  cases result with
  | ok after => trivial
  | error underflow => exact List.suffix_rfl

theorem sheds_calculate : (calculate op next abyss).Sheds abyss := by
  unfold calculate
  split
  · exact List.suffix_rfl
  · rename_i a b rest popped
    have less : rest.topFirst <:+ abyss.topFirst :=
      ⟨[a, b], (Abyss.topFirst_of_popTwo popped).symm⟩
    split
    · exact less
    · split
      · trivial
      · exact less

theorem sheds_branch {labels : Labels} {label : Token} :
    (branch labels op label next abyss).Sheds abyss := by
  unfold branch
  split
  · trivial
  · exact List.suffix_rfl

end Effect

namespace Program

theorem sheds_perform (program : Program) (op : Opcode) (parameter : Token) (next : Nat)
    (abyss : Abyss) : (program.perform op parameter next abyss).Sheds abyss := by
  cases op with
  | nop | lbl | trm | blo | red | r3d => trivial
  | prn | pr1 =>
    rw [perform]
    exact Effect.sheds_print
  | sbm | pop | dpl | srn | mrg | cnt => exact Effect.sheds_rearrange
  | add | sub | mul | div => exact Effect.sheds_calculate
  | jmp | eql | lss | gr8 | eqz =>
    rw [perform]
    exact Effect.sheds_branch

theorem suffix_of_failed {program : Program} {machine left : Machine} {host after : σ}
    {failure : Failure} (failed : program.turn machine host = .failed failure left after) :
    left.abyss.topFirst <:+ machine.abyss.topFirst := by
  have performed {frame : Frame} {op : Opcode} {parameter : Token} {next : Nat}
      (failed : Turn.ofEffect (machine.enter frame) host
        (program.perform op parameter next machine.abyss) = .failed failure left after) :
      left.abyss.topFirst <:+ machine.abyss.topFirst := by
    have sheds := program.sheds_perform op parameter next machine.abyss
    rcases Turn.left_of_failed failed with kept | ⟨cause, own⟩ | ⟨text, further, own, kept⟩
    · exact kept ▸ List.suffix_rfl
    · rwa [own] at sheds
    · rw [own] at sheds
      exact kept ▸ sheds
  unfold turn at failed
  split at failed
  · contradiction
  · exact (Turn.failed.inj failed).2.1 ▸ List.suffix_rfl
  · exact (Turn.failed.inj failed).2.1 ▸ List.suffix_rfl
  · exact performed failed
  · exact performed failed

end Program

end AwaLang
