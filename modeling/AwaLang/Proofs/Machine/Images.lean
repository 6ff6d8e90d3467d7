import AwaLang.Proofs.Machine.Answers

/-!
One host seen as another. Where a map takes the answers of a host to those of a second one, it takes
the runs on it to runs on the second. If a read has to wait, the second host is still the same, so
that a run that waits is seen as the front of one that goes on.
-/

namespace AwaLang

variable {σ τ : Type}

def Turn.map (f : σ → τ) : Turn σ → Turn τ
  | ended => .ended
  | failed failure left host => .failed failure left (f host)
  | waiting calls host => .waiting calls (f host)
  | done calls next host => .done calls next (f host)

def Program.Stop.map (f : σ → τ) (stop : Stop σ) : Stop τ :=
  ⟨stop.outcome, stop.abyss, stop.calls, stop.steps, f stop.host⟩

variable [Host σ] [Host τ]

/-- On hosts with the property, the second host answers through the map as the first does, unless
that has no answer yet. -/
structure Host.Image (P : σ → Prop) (f : σ → τ) : Prop extends Host.Keeps P where
  waits : ∀ host after, P host → Host.read host = (.notYet, after) → f after = f host
  answers : ∀ host, P host → (Host.read host).1 ≠ .notYet →
    Host.read (f host) = ((Host.read host).1, f (Host.read host).2)
  writes : ∀ host text, P host → Host.write (f host) text = (Host.write host text).map f

namespace Host.Image

variable {P : σ → Prop} {f : σ → τ} {host after : σ}

theorem ofEffect (image : Host.Image P f) (held : P host) {machine : Machine}
    {effect : Effect} (goes : (Turn.ofEffect machine host effect).waits = false) :
    Turn.ofEffect machine (f host) effect = (Turn.ofEffect machine host effect).map f := by
  cases effect with
  | proceed | fail => rfl
  | write text next =>
    simp only [Turn.ofEffect, image.writes host text held]
    cases Host.write host text <;> rfl
  | read resume =>
    have answered : (Host.read host).1 ≠ .notYet := by
      intro late
      have reads : (Effect.read resume).reads = true := rfl
      obtain ⟨calls, waits⟩ := Turn.ofEffect_eq_waiting_iff.2 ⟨reads, Prod.ext late rfl⟩
      rw [waits] at goes
      contradiction
    simp only [Turn.ofEffect, image.answers host held answered]
    rcases reading : Host.read host with ⟨answer, after⟩
    cases answer with
    | line text =>
      dsimp only
      cases resume (some text) <;> rfl
    | endOfInput =>
      dsimp only
      cases resume none <;> rfl
    | notYet => exact absurd (congrArg Prod.fst reading) answered
    | broken message => rfl

theorem turn (image : Host.Image P f) (held : P host) {program : Program} {machine : Machine}
    {turn : Turn σ} (taken : program.turn machine host = turn)
    (goes : turn.waits = false) : program.turn machine (f host) = turn.map f := by
  subst taken
  unfold Program.turn at goes ⊢
  cases found : Instruction.at? program.tokens machine.cursor with
  | none => rfl
  | some instruction =>
    simp only [found] at goes ⊢
    cases instruction with
    | plain | applied => exact image.ofEffect held goes
    | truncated | unknown => rfl

theorem execute_of_goes (image : Host.Image P f) (held : P host) {program : Program} {spare : Nat}
    {machine : Machine} (goes : (program.execute spare machine host).outcome.waits = false) :
    program.execute spare machine (f host) = (program.execute spare machine host).map f ∧
      program.trail spare machine (f host) = program.trail spare machine host := by
  fun_induction program.execute spare machine host with
  | case1 spare machine host steps taken =>
    have seen := image.turn held taken rfl
    rw [Program.execute.eq_def, Program.trail.eq_def, Program.trail.eq_def, seen, taken]
    exact ⟨rfl, rfl⟩
  | case2 spare machine host steps failure left after taken =>
    have seen := image.turn held taken rfl
    rw [Program.execute.eq_def, Program.trail.eq_def, Program.trail.eq_def, seen, taken]
    exact ⟨rfl, rfl⟩
  | case3 => contradiction
  | case4 machine host calls next after taken =>
    have seen := image.turn held taken rfl
    rw [Program.execute, Program.trail, Program.trail, seen, taken]
    exact ⟨rfl, rfl⟩
  | case5 machine host calls next after taken spare ih =>
    have seen := image.turn held taken rfl
    obtain ⟨stop, trail⟩ := ih (image.of_turn held taken) goes
    rw [Program.execute, Program.trail, Program.trail, seen, taken]
    exact ⟨stop, congrArg (machine :: ·) trail⟩

/-- A run that waits has done on both hosts what is behind it, and on the second it goes on from
there. -/
theorem execute_of_waiting (image : Host.Image P f) (held : P host) {program : Program}
    {spare left : Nat} {machine last : Machine}
    (waits : (program.execute spare machine host).outcome = .waiting last left) :
    program.execute spare machine (f host) =
        program.execute left last (f (program.execute spare machine host).host) ∧
      ∃ before, program.trail spare machine host = before ++ [last] ∧
        program.trail spare machine (f host) =
          before ++ program.trail left last (f (program.execute spare machine host).host) := by
  fun_induction program.execute spare machine host with
  | case1 | case2 | case4 => contradiction
  | case3 spare machine host steps calls after taken =>
    rw [Program.Outcome.waiting.injEq] at waits
    obtain ⟨rfl, rfl⟩ := waits
    have same := image.waits host after held (Program.turn_eq_waiting_iff.1 ⟨calls, taken⟩).2
    rw [same]
    refine ⟨rfl, [], ?_, rfl⟩
    rw [Program.trail.eq_def, taken]
    rfl
  | case5 machine host calls next after taken spare ih =>
    have seen := image.turn held taken rfl
    obtain ⟨stop, before, trail, whole⟩ := ih (image.of_turn held taken) waits
    rw [Program.execute, Program.trail, Program.trail, seen, taken]
    refine ⟨stop, machine :: before, congrArg (machine :: ·) trail, congrArg (machine :: ·) whole⟩

end Host.Image

namespace Interpreter

def map (f : σ → τ) (i : Interpreter σ) : Interpreter τ :=
  ⟨f i.host, i.abyss, i.calls, i.steps⟩

end Interpreter

namespace Host.Image

variable {P : σ → Prop} {f : σ → τ} {host : σ} {job later : Job}

open Interpreter

theorem advance_of_goes (image : Host.Image P f) (held : P host)
    (goes : (advance job host).1.waits = false) :
    advance job (f host) = ((advance job host).1, (advance job host).2.map f) ∧
      job.reads (f host) = job.reads host := by
  rw [advance_waits] at goes
  obtain ⟨stop, trail⟩ := image.execute_of_goes held goes
  refine ⟨?_, congrArg (List.countP _) trail⟩
  rw [advance, stop, advance]
  dsimp only [Program.Stop.map]
  cases (job.program.execute job.spare job.machine host).outcome <;> rfl

theorem advance_of_waiting (image : Host.Image P f) (held : P host)
    (waits : (advance job host).1 = .waiting later) :
    advance job (f host) = advance later (f (advance job host).2.host) ∧
      job.reads (f host) + 1 = job.reads host + later.reads (f (advance job host).2.host) := by
  obtain ⟨program, waits⟩ := outcome_of_advance waits
  obtain ⟨stop, before, trail, whole⟩ := image.execute_of_waiting held waits
  have reads := (Program.readsAt_of_waiting waits).1
  constructor
  · rw [advance, stop, advance, program, host_advance]
  · rw [Job.reads, Job.reads, Job.reads, program, host_advance, Program.reads, Program.reads,
      Program.reads, trail, whole, List.countP_append, List.countP_append, List.countP_singleton,
      if_pos reads]
    omega

end Host.Image

end AwaLang
