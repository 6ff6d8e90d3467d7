import AwaLang.Proofs.Machine.Answers

/-!
Simulation of one program by another. Their cursors need only correspond; the second program may go
on alone, with instructions that do nothing, as long as its budget lasts. Then both read and write
the same and stop for the same cause.
-/

namespace AwaLang

variable {R : Nat → Nat → Prop}

structure State.Matches (R : Nat → Nat → Prop) (state other : State) : Prop where
  cursor : R state.cursor other.cursor
  abyss : state.abyss = other.abyss

inductive Effect.ResumesAlike (R : Nat → Nat → Prop) :
    Except Cause State → Except Cause State → Prop
  | error (cause : Cause) : ResumesAlike R (.error cause) (.error cause)
  | ok {next other : State} (same : next.Matches R other) : ResumesAlike R (.ok next) (.ok other)

theorem Effect.ResumesAlike.cases {R : Nat → Nat → Prop} {first second : Except Cause State}
    (alike : Effect.ResumesAlike R first second) :
    (∃ cause, first = .error cause ∧ second = .error cause) ∨
      ∃ next other, first = .ok next ∧ second = .ok other ∧ next.Matches R other := by
  cases alike with
  | error cause => exact .inl ⟨cause, rfl, rfl⟩
  | @ok next other both => exact .inr ⟨next, other, rfl, rfl, both⟩

inductive Effect.Matches (R : Nat → Nat → Prop) : Effect → Effect → Prop
  | proceed {next other : State} (same : next.Matches R other) :
      Matches R (.proceed next) (.proceed other)
  | write {next other : State} (text : String) (same : next.Matches R other) :
      Matches R (.write text next) (.write text other)
  | read {resume again : Option String → Except Cause State}
      (same : ∀ line, Effect.ResumesAlike R (resume line) (again line)) :
      Matches R (.read resume) (.read again)
  | fail (cause : Cause) (abyss : Abyss) : Matches R (.fail cause abyss) (.fail cause abyss)

namespace Effect

variable {op : Opcode} {next other : Nat} {abyss : Abyss}

theorem matches_input (on : R next other) (bubbleIn : Option String → Except Cause Bubble) :
    (input next abyss bubbleIn).Matches R (input other abyss bubbleIn) := by
  apply Matches.read
  intro line
  cases bubbleIn line with
  | error cause => exact .error cause
  | ok b => exact .ok ⟨on, rfl⟩

theorem matches_print (on : R next other) (textOf : Bubble → Except Cause String) :
    (print op next abyss textOf).Matches R (print op other abyss textOf) := by
  unfold print
  split
  · exact .fail _ _
  · split
    · exact .write _ ⟨on, rfl⟩
    · exact .fail _ _

theorem matches_rearrange (on : R next other) (result : Except Underflow Abyss) :
    (rearrange op next abyss result).Matches R (rearrange op other abyss result) := by
  cases result with
  | error underflow => exact .fail _ _
  | ok after => exact .proceed ⟨on, rfl⟩

theorem matches_calculate (on : R next other) :
    (calculate op next abyss).Matches R (calculate op other abyss) := by
  unfold calculate
  split
  · exact .fail _ _
  · split
    · exact .fail _ _
    · split
      · exact .proceed ⟨on, rfl⟩
      · exact .fail _ _

theorem matches_branch {labels table : Labels} {label : Token} (on : R next other)
    (leads : R (labels.goto label next) (table.goto label other)) :
    (branch labels op label next abyss).Matches R (branch table op label other abyss) := by
  unfold branch
  split
  · rename_i taken _
    cases taken with
    | true => exact .proceed ⟨leads, rfl⟩
    | false => exact .proceed ⟨on, rfl⟩
  · exact .fail _ _

end Effect

/-- An operation asks of its program only where it leads: on, to the end, or to a label. -/
theorem Program.matches_perform {program other : Program} {op : Opcode} {parameter : Token}
    {next later : Nat} (on : R next later)
    (ended : R program.tokens.length other.tokens.length)
    (leads : R (program.labels.goto parameter next) (other.labels.goto parameter later))
    (abyss : Abyss) :
    (program.perform op parameter next abyss).Matches R
      (other.perform op parameter later abyss) := by
  cases op with
  | nop | lbl | blo => exact .proceed ⟨on, rfl⟩
  | trm => exact .proceed ⟨ended, rfl⟩
  | prn | pr1 =>
    rw [perform, perform]
    exact Effect.matches_print on _
  | red | r3d => exact Effect.matches_input on _
  | sbm | pop | dpl | srn | mrg | cnt => exact Effect.matches_rearrange on _
  | add | sub | mul | div => exact Effect.matches_calculate on
  | jmp | eql | lss | gr8 | eqz =>
    rw [perform, perform]
    exact Effect.matches_branch on leads

variable {σ : Type}

inductive Turn.Matches (R : Nat → Nat → Prop) : Turn σ → Turn σ → Prop
  | ended : Matches R .ended .ended
  | failed (cause : Cause) (calls others : CallStack) {left other : Machine}
      (same : left.abyss = other.abyss) (host : σ) :
      Matches R (.failed (calls.failure cause) left host)
        (.failed (others.failure cause) other host)
  | waiting (calls calls' : CallStack) (host : σ) :
      Matches R (.waiting calls host) (.waiting calls' host)
  | done {next other : Machine} (calls others : CallStack) (same : next.Matches R other.toState)
      (host : σ) : Matches R (.done calls next host) (.done others other host)

variable [Host σ]

theorem Turn.matches_ofEffect {effect other : Effect} (same : effect.Matches R other)
    {machine later : Machine} (held : machine.abyss = later.abyss) (host : σ) :
    (Turn.ofEffect machine host effect).Matches R (Turn.ofEffect later host other) := by
  cases same with
  | proceed same => exact .done _ _ same host
  | fail cause left =>
    apply Matches.failed
    rfl
  | @write next other text same =>
    simp only [ofEffect]
    cases Host.write host text with
    | ok after => exact .done _ _ same after
    | error message => exact .failed _ _ _ same.abyss host
  | @read resume again same =>
    simp only [ofEffect]
    rcases Host.read host with ⟨answer, after⟩
    cases answer with
    | line text =>
      rcases (same (some text)).cases with ⟨cause, own, other⟩ | ⟨next, other, own, again, both⟩
      · simp only [own, other]
        exact .failed cause _ _ held after
      · simp only [own, again]
        exact .done _ _ both after
    | endOfInput =>
      rcases (same none).cases with ⟨cause, own, other⟩ | ⟨next, other, own, again, both⟩
      · simp only [own, other]
        exact .failed cause _ _ held after
      · simp only [own, again]
        exact .done _ _ both after
    | notYet => exact .waiting _ _ after
    | broken message => exact .failed _ _ _ held after

namespace Program

/-- At machines that match, the other program takes the same turn, or it goes on alone with a turn
that does nothing. -/
def Simulates (σ : Type) [Host σ] (R : Nat → Nat → Prop) (program other : Program) : Prop :=
  ∀ (machine later : Machine) (host : σ), machine.Matches R later.toState →
    (program.turn machine host).Matches R (other.turn later host) ∧
        other.readsAt later = program.readsAt machine ∨
      ∃ calls next, other.turn later host = .done calls next host ∧
        machine.Matches R next.toState ∧ other.readsAt later = false

/-- Runs that end alike: with the same result, or for the same cause, or with a wait at machines
that match, where the other run has no more of its budget left. -/
inductive Outcome.Matches (R : Nat → Nat → Prop) : Outcome → Outcome → Prop
  | ended : Matches R .ended .ended
  | failed (cause : Cause) (calls others : CallStack) :
      Matches R (.failed (calls.failure cause)) (.failed (others.failure cause))
  | waiting {machine later : Machine} {spare left : Nat} (same : machine.Matches R later.toState)
      (fewer : left ≤ spare) : Matches R (.waiting machine spare) (.waiting later left)

structure Stop.Matches (R : Nat → Nat → Prop) (stop other : Stop σ) : Prop where
  outcome : stop.outcome.Matches R other.outcome
  abyss : stop.abyss = other.abyss
  host : stop.host = other.host
  steps : stop.steps ≤ other.steps

def Outcome.Lasts (outcome : Outcome) : Prop :=
  ∀ frames, outcome ≠ .failed ⟨.limitExceeded limit, frames⟩

variable {program other : Program}

theorem answerAt_congr {machine later : Machine}
    (reads : other.readsAt later = program.readsAt machine) (host : σ) :
    program.answerAt machine host = other.answerAt later host := by
  rw [answerAt, answerAt, reads]

theorem Simulates.of_stops (simulates : program.Simulates σ R other) {machine later : Machine}
    (same : machine.Matches R later.toState) (host : σ)
    (stops : ∀ calls next after, other.turn later host ≠ .done calls next after) :
    (program.turn machine host).Matches R (other.turn later host) ∧
      program.answerAt machine host = other.answerAt later host := by
  rcases simulates machine later host same with ⟨turns, reads⟩ | ⟨calls, next, alone, -⟩
  · exact ⟨turns, answerAt_congr reads host⟩
  · exact absurd alone (stops calls next host)

theorem Simulates.execute_of_stops (simulates : program.Simulates σ R other)
    {machine later : Machine} (same : machine.Matches R later.toState) {spare left : Nat}
    (fewer : left ≤ spare) (host : σ)
    (stops : ∀ calls next after, other.turn later host ≠ .done calls next after) :
    (program.execute spare machine host).Matches R (other.execute left later host) ∧
      program.answers spare machine host = other.answers left later host := by
  obtain ⟨turns, reading⟩ := simulates.of_stops same host stops
  have steps : limit - 1 - spare ≤ limit - 1 - left := Nat.sub_le_sub_left fewer _
  rw [Program.execute.eq_def, Program.execute.eq_def other, answers.eq_def, answers.eq_def other,
    reading]
  generalize program.turn machine host = turn at turns ⊢
  generalize other.turn later host = taken at turns stops ⊢
  cases turns with
  | ended => exact ⟨⟨.ended, same.abyss, rfl, steps⟩, rfl⟩
  | failed cause calls others left => exact ⟨⟨.failed cause calls others, left, rfl, steps⟩, rfl⟩
  | waiting => exact ⟨⟨.waiting same fewer, same.abyss, rfl, steps⟩, rfl⟩
  | done calls others both after => exact absurd rfl (stops others _ after)

/-- A run that is simulated stops like the other, with the same reads and writes before. -/
theorem Simulates.execute (simulates : program.Simulates σ R other) {machine later : Machine}
    (same : machine.Matches R later.toState) {spare left : Nat} (fewer : left ≤ spare) (host : σ)
    (lasts : (other.execute left later host).outcome.Lasts) :
    (program.execute spare machine host).Matches R (other.execute left later host) ∧
      program.answers spare machine host = other.answers left later host := by
  induction left generalizing machine later spare host with
  | zero =>
    apply simulates.execute_of_stops same fewer host
    intro calls next after done
    rw [Program.execute, done] at lasts
    exact lasts calls.frames rfl
  | succ left ih =>
    cases taken : other.turn later host with
    | ended | failed | waiting =>
      exact simulates.execute_of_stops same fewer host (by simp [taken])
    | done calls next after =>
      rw [Program.execute, taken] at lasts
      rcases simulates machine later host same with ⟨turns, reads⟩ | ⟨_, _, alone, beside, silent⟩
      · rw [taken] at turns
        generalize own : program.turn machine host = turn at turns
        cases turns with
        | done first _ both =>
          obtain ⟨spare, rfl⟩ := Nat.exists_eq_add_of_le' (Nat.lt_of_lt_of_le left.succ_pos fewer)
          obtain ⟨stop, reading⟩ := ih both (Nat.le_of_succ_le_succ fewer) after lasts
          rw [Program.execute, Program.execute, answers, answers, own, taken, answerAt_congr reads]
          exact ⟨stop, congrArg _ reading⟩
      · -- The other program has gone on alone, and this one is still where it was.
        rw [taken, Turn.done.injEq] at alone
        obtain ⟨-, rfl, rfl⟩ := alone
        obtain ⟨stop, reading⟩ := ih beside (Nat.le_of_succ_le fewer) after lasts
        rw [Program.execute.eq_def other, answers.eq_def other, taken, answerAt,
          if_neg (by simp [silent]), List.nil_append]
        exact ⟨stop, reading⟩

end Program

end AwaLang
