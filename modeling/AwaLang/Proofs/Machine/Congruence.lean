import AwaLang.Proofs.Interpreter.Normal
import AwaLang.Proofs.Machine.Answers

namespace AwaLang

def Job.mapProgram (f : Program → Program) (job : Job) : Job :=
  { job with program := f job.program }

def Report.mapProgram (f : Program → Program) : Report → Report
  | finished result => .finished result
  | failed failure => .failed failure
  | waiting job => .waiting (job.mapProgram f)

theorem Report.mapProgram_of_goes {report : Report} (goes : report.waits = false)
    (f : Program → Program) : report.mapProgram f = report := by
  cases report with
  | finished | failed => rfl
  | waiting => contradiction

variable {σ : Type} [Host σ]

/-- Wherever a run of the program gets to from a machine, the other program takes the same turn. -/
structure Program.Agrees (σ : Type) [Host σ] (program other : Program) (start : Machine) :
    Prop where
  readsAt : ∀ machine, program.Reaches σ start machine →
    other.readsAt machine = program.readsAt machine
  turn : ∀ machine (host : σ), program.Reaches σ start machine →
    other.turn machine host = program.turn machine host

namespace Program.Agrees

variable {program other : Program} {start machine : Machine}

theorem of_reaches (agrees : program.Agrees σ other start)
    (reaches : program.Reaches σ start machine) : program.Agrees σ other machine where
  readsAt last further := agrees.readsAt last (reaches.trans further)
  turn last host further := agrees.turn last host (reaches.trans further)

theorem execute (agrees : program.Agrees σ other machine) (spare : Nat) (host : σ) :
    other.execute spare machine host = program.execute spare machine host := by
  fun_induction program.execute spare machine host with
  | case1 spare machine host steps taken =>
    rw [Program.execute.eq_def, agrees.turn machine host .refl, taken]
  | case2 spare machine host steps failure left after taken =>
    rw [Program.execute.eq_def, agrees.turn machine host .refl, taken]
  | case3 spare machine host steps calls after taken =>
    rw [Program.execute.eq_def, agrees.turn machine host .refl, taken]
  | case4 machine host calls next after taken =>
    rw [Program.execute, agrees.turn machine host .refl, taken]
  | case5 machine host calls next after taken spare ih =>
    rw [Program.execute, agrees.turn machine host .refl, taken]
    exact ih (agrees.of_reaches (.turn .refl taken))

theorem answerAt (agrees : program.Agrees σ other machine) (host : σ) :
    other.answerAt machine host = program.answerAt machine host := by
  rw [Program.answerAt, Program.answerAt, agrees.readsAt machine .refl]

theorem answers (agrees : program.Agrees σ other machine) (spare : Nat) (host : σ) :
    other.answers spare machine host = program.answers spare machine host := by
  induction spare generalizing machine host with
  | zero =>
    rw [Program.answers, Program.answers, agrees.answerAt, agrees.turn machine host .refl]
  | succ spare ih =>
    rw [Program.answers, Program.answers, agrees.answerAt, agrees.turn machine host .refl]
    cases taken : program.turn machine host with
    | ended | failed | waiting => rfl
    | done calls next after =>
      dsimp only
      rw [ih (agrees.of_reaches (.turn .refl taken)) after]

end Program.Agrees

namespace Interpreter

variable {job : Job} {f : Program → Program}

theorem advance_mapProgram (agrees : job.program.Agrees σ (f job.program) job.machine) (host : σ) :
    advance (job.mapProgram f) host =
      ((advance job host).1.mapProgram f, (advance job host).2) := by
  rw [advance, advance, Job.mapProgram, agrees.execute]
  cases (job.program.execute job.spare job.machine host).outcome <;> rfl

theorem answers_mapProgram (agrees : job.program.Agrees σ (f job.program) job.machine) (host : σ) :
    (job.mapProgram f).answers host = job.answers host :=
  agrees.answers job.spare host

variable {i : Interpreter σ} {tokens other : List Token}

/-- A stream whose program takes the turns of another one's runs as that one does: to the same
report and the same host, with the same answers, and the same after every wait. -/
theorem runs_mapProgram
    (prepares : i.prepare other = (i.prepare tokens).map (Job.mapProgram f))
    (agrees : ∀ job, i.prepare tokens = .ok job →
      job.program.Agrees σ (f job.program) job.machine) :
    ((i.runTokens tokens).1.waits = false → i.runTokens other = i.runTokens tokens) ∧
    i.runTokens other = ((i.runTokens tokens).1.mapProgram f, (i.runTokens tokens).2) ∧
    i.answersOf other = i.answersOf tokens ∧
    ∀ job later (host : σ), i.prepare tokens = .ok job → job.Resumes σ later →
      advance (later.mapProgram f) host =
        ((advance later host).1.mapProgram f, (advance later host).2) ∧
      (later.mapProgram f).answers host = later.answers host := by
  have runs : i.runTokens other =
        ((i.runTokens tokens).1.mapProgram f, (i.runTokens tokens).2) ∧
      i.answersOf other = i.answersOf tokens := by
    rw [runTokens, runTokens, answersOf, answersOf, prepares]
    cases prepared : i.prepare tokens with
    | error failure => exact ⟨rfl, rfl⟩
    | ok job =>
      have first := agrees job prepared
      exact ⟨advance_mapProgram first i.host, answers_mapProgram first i.host⟩
  refine ⟨?_, runs.1, runs.2, ?_⟩
  · intro goes
    rw [runs.1, Report.mapProgram_of_goes goes]
  · intro job later host prepared resumes
    obtain ⟨same, reaches⟩ := resumes.reaches
    have further : later.program.Agrees σ (f later.program) later.machine := by
      rw [same]
      exact (agrees job prepared).of_reaches reaches
    exact ⟨advance_mapProgram further host, answers_mapProgram further host⟩

end Interpreter

end AwaLang
