import AwaLang.Host.Buffer
import AwaLang.Proofs.Bubble.Normal
import AwaLang.Proofs.Machine.Invariants

namespace AwaLang

def Abyss.Normal (abyss : Abyss) : Prop := ∀ b ∈ abyss.topFirst, b.Normal

theorem Abyss.normal_empty : empty.Normal := all_empty Bubble.Normal

theorem Program.keeps_normal (program : Program) : program.Keeps Abyss.Normal := by
  intro op parameter next abyss normal
  apply within_of_closed Bubble.closed_normal _ normal
  intro arithmetic _ a b result _ _ combined
  exact Bubble.normal_combine combined

variable {σ : Type} [Host σ]

inductive Job.Resumes (σ : Type) [Host σ] (job : Job) : Job → Prop
  | refl : Resumes σ job job
  | wait {later next : Job} {host : σ} (before : Resumes σ job later)
      (waits : (Interpreter.advance later host).1 = .waiting next) : Resumes σ job next

namespace Interpreter

/-- The states of an interpreter between two runs. The outside may change at any time, and a run may
be given up at any instruction, with what it has in the abyss. -/
inductive Reachable : Interpreter σ → Prop
  | new (host : σ) : Reachable (new host)
  | outside {i : Interpreter σ} (before : Reachable i) (host : σ) :
      Reachable { i with host := host }
  | ran {i : Interpreter σ} (before : Reachable i) (submission : Submission) :
      Reachable (i.run submission).2
  | resumed {i : Interpreter σ} {tokens : List Token} {job later : Job} (before : Reachable i)
      (prepared : i.prepare tokens = .ok job) (resumes : job.Resumes σ later) (host : σ) :
      Reachable (advance later host).2
  | dropped {i : Interpreter σ} {tokens : List Token} {job : Job} {machine : Machine}
      (before : Reachable i) (prepared : i.prepare tokens = .ok job)
      (visits : job.Visits σ machine) (host : σ) (calls : CallStack) (steps : Nat) :
      Reachable ⟨host, machine.abyss, calls, steps⟩

theorem abyss_advance (job : Job) (host : σ) : (advance job host).2.abyss = .empty := by
  rw [snd_advance]

theorem abyss_runTokens (i : Interpreter σ) (tokens : List Token) :
    (i.runTokens tokens).2.abyss = .empty := by
  rw [runTokens]
  split
  · exact abyss_advance _ i.host
  · rfl

theorem abyss_run (i : Interpreter σ) (submission : Submission) :
    (i.run submission).2.abyss = .empty ∨ (i.run submission).2 = i := by
  cases submission with
  | tokens tokens => exact .inl (abyss_runTokens i tokens)
  | source text =>
    rw [run, runSource]
    split
    · exact .inl (abyss_runTokens i _)
    · exact .inr rfl

theorem abyss_run_of_empty {i : Interpreter σ} (empty : i.abyss = .empty)
    (submission : Submission) : (i.run submission).2.abyss = .empty := by
  rcases i.abyss_run submission with cleared | same
  · exact cleared
  · exact (congrArg Interpreter.abyss same).trans empty

theorem normal_of_visits {i : Interpreter σ} {tokens : List Token} {job : Job} {machine : Machine}
    (normal : i.abyss.Normal) (prepared : i.prepare tokens = .ok job)
    (visits : job.Visits σ machine) : machine.abyss.Normal := by
  obtain ⟨-, front, -⟩ := prepare_eq_ok prepared
  have start : job.machine.abyss.Normal := by rwa [front]
  exact (Program.keeps_normal job.program).of_reaches start visits.reaches

theorem Reachable.normal {i : Interpreter σ} (reachable : i.Reachable) : i.abyss.Normal := by
  induction reachable with
  | new host => exact Abyss.normal_empty
  | outside before host ih => exact ih
  | @ran i before submission ih =>
    rcases i.abyss_run submission with empty | same
    · rw [empty]
      exact Abyss.normal_empty
    · rw [same]
      exact ih
  | resumed before prepared resumes host ih =>
    rw [abyss_advance]
    exact Abyss.normal_empty
  | dropped before prepared visits host calls steps ih => exact normal_of_visits ih prepared visits

end Interpreter

namespace Job

theorem Resumes.reaches {job later : Job} (resumes : job.Resumes σ later) :
    later.program = job.program ∧ job.program.Reaches σ job.machine later.machine := by
  induction resumes with
  | refl => exact ⟨rfl, .refl⟩
  | @wait later next host before waits ih =>
    obtain ⟨same, reaches⟩ := ih
    obtain ⟨program, outcome⟩ := Interpreter.outcome_of_advance waits
    have onwards := Program.reaches_of_waiting outcome
    rw [same] at onwards
    exact ⟨program.trans same, reaches.trans onwards⟩

end Job

namespace Interpreter

theorem normal_resultOf {abyss : Abyss} (normal : abyss.Normal) : (resultOf abyss).Normal := by
  obtain ⟨_ | ⟨top, below⟩⟩ := abyss
  · exact .scalar 0
  · exact normal top List.mem_cons_self

theorem normal_of_advance {job : Job} {host : σ} {result : Bubble}
    (normal : job.machine.abyss.Normal) (finished : (advance job host).1 = .finished result) :
    result.Normal := by
  have final : (job.program.execute job.spare job.machine host).abyss.Normal :=
    (Program.keeps_normal job.program).execute normal job.spare
  rw [(outcome_of_advance_finished finished).2]
  exact normal_resultOf final

theorem normal_of_runTokens {i : Interpreter σ} {tokens : List Token} {result : Bubble}
    (normal : i.abyss.Normal) (finished : (i.runTokens tokens).1 = .finished result) :
    result.Normal := by
  rw [runTokens] at finished
  split at finished
  · rename_i job prepared
    obtain ⟨-, front, -⟩ := prepare_eq_ok prepared
    have start : job.machine.abyss.Normal := by rwa [front]
    exact normal_of_advance start finished
  · contradiction

/-- Whatever has been run before, and whatever the outside answers, all bubbles in the abyss are
normal at every instruction and after every failure in the middle of one, however often the run has
waited; and what a run gives back at its end is normal. -/
theorem normal_of_reachable {i : Interpreter σ} (reachable : i.Reachable) :
    i.abyss.Normal ∧
    (∀ tokens job, i.prepare tokens = .ok job →
      (∀ machine, job.Visits σ machine → machine.abyss.Normal ∧
        ∀ (host after : σ) failure left,
          job.program.turn machine host = .failed failure left after → left.abyss.Normal) ∧
      ∀ later (host : σ) result, job.Resumes σ later →
        (advance later host).1 = .finished result → result.Normal) ∧
    ∀ submission result, (i.run submission).1 = .finished result → result.Normal := by
  have normal := reachable.normal
  refine ⟨normal, ?_, ?_⟩
  · intro tokens job prepared
    constructor
    · intro machine visits
      have held := normal_of_visits normal prepared visits
      refine ⟨held, ?_⟩
      intro host after failure left failed
      exact (Program.keeps_normal job.program).of_failed held failed
    · intro later host result resumes finished
      obtain ⟨-, front, -⟩ := prepare_eq_ok prepared
      obtain ⟨same, reaches⟩ := resumes.reaches
      have start : job.machine.abyss.Normal := by rwa [front]
      have held := (Program.keeps_normal job.program).of_reaches start reaches
      exact normal_of_advance held finished
  · intro submission result finished
    cases submission with
    | tokens tokens => exact normal_of_runTokens normal finished
    | source text =>
      rw [run, runSource] at finished
      split at finished
      · exact normal_of_runTokens normal finished
      · contradiction

theorem normal_of_reachable_nested :
    (new (Buffer.ofLines [])).Reachable ∧
    ((new (Buffer.ofLines [])).run (.tokens [5, 2, 5, 7, 14, 5, 2, 14])).1 =
      .finished (.double [.double [.scalar 0, .scalar 2], .double [.scalar 2, .scalar 0]]) ∧
    (Bubble.double [.double [.scalar 0, .scalar 2], .double [.scalar 2, .scalar 0]]).Normal := by
  have reachable : (new (Buffer.ofLines [])).Reachable := .new (Buffer.ofLines [])
  have finished : ((new (Buffer.ofLines [])).run (.tokens [5, 2, 5, 7, 14, 5, 2, 14])).1 =
      .finished (.double [.double [.scalar 0, .scalar 2], .double [.scalar 2, .scalar 0]]) := by
    decide +kernel
  exact ⟨reachable, finished, (normal_of_reachable reachable).2.2 _ _ finished⟩

end Interpreter

end AwaLang
