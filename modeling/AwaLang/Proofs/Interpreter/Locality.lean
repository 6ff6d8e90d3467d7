import AwaLang.Host.Buffer
import AwaLang.Proofs.Interpreter.Normal
import AwaLang.Proofs.Machine.Alignment
import AwaLang.Proofs.Machine.Locality

namespace AwaLang

def Job.above (job : Job) (base : Abyss) : Job := { job with machine := job.machine.above base }

def Interpreter.above {σ : Type} (i : Interpreter σ) (base : Abyss) : Interpreter σ :=
  { i with abyss := i.abyss.above base }

theorem Interpreter.prepare_above {σ : Type} (i : Interpreter σ) (base : Abyss)
    (tokens : List Token) :
    (i.above base).prepare tokens = (i.prepare tokens).map (·.above base) := by
  rw [prepare, prepare]
  cases Program.ofTokens? tokens <;> rfl

variable {σ : Type} [Host σ] {tokens : List Token}

theorem Program.neverSinks_of_tokens {program : Program} {machine : Machine}
    (never : ∀ placed ∈ Instruction.ofTokens tokens, placed.instruction.sinks = false)
    (resolved : ofTokens? tokens = some program) (aligned : Aligned tokens machine.cursor) :
    program.NeverSinks σ machine := by
  intro last instruction reaches found
  have place := aligned_of_reaches resolved aligned reaches
  obtain ⟨labels, -, rfl⟩ := Option.map_eq_some_iff.1 resolved
  exact never _ (place.exists_placed found)

def Job.execute (job : Job) (host : σ) : Program.Stop σ :=
  job.program.execute job.spare job.machine host

structure Job.Local (job : Job) (host : σ) (base : Abyss) : Prop where
  execute : (job.above base).execute host = (job.execute host).above base
  answers : (job.above base).answers host = job.answers host
  texts : (job.above base).texts host = job.texts host

theorem Job.local_of_neverSinks {job : Job} {host : σ}
    (never : job.program.NeverSinks σ job.machine)
    (enough : (job.execute host).outcome.underflows = false) (base : Abyss) :
    job.Local host base := by
  obtain ⟨stop, answers, texts⟩ := Program.execute_above never enough base
  exact ⟨stop, answers, texts⟩

namespace Interpreter

/-- How the run of a stream stops, told before the result is taken from the abyss and the rest is
thrown away. -/
def execute (i : Interpreter σ) (tokens : List Token) : Program.Stop σ :=
  match i.prepare tokens with
  | .ok job => job.execute i.host
  | .error failure => ⟨.failed failure, i.abyss, i.resolving.calls, i.resolving.steps, i.host⟩

theorem runTokens_of_execute (i : Interpreter σ) (tokens : List Token) :
    (i.runTokens tokens).2 =
      ⟨(i.execute tokens).host, .empty, (i.execute tokens).callsAfter, (i.execute tokens).steps⟩ ∧
    ((i.execute tokens).outcome = .ended →
      (i.runTokens tokens).1 = .finished (resultOf (i.execute tokens).abyss)) ∧
    ∀ failure, (i.execute tokens).outcome = .failed failure →
      (i.runTokens tokens).1 = .failed failure := by
  rw [runTokens, execute]
  cases i.prepare tokens with
  | error own =>
    dsimp only
    refine ⟨rfl, by simp, ?_⟩
    intro failure same
    rw [Program.Outcome.failed.inj same]
  | ok job =>
    refine ⟨snd_advance job i.host, ?_⟩
    dsimp only [advance, Job.execute]
    cases (job.program.execute job.spare job.machine i.host).outcome with
    | ended => simp
    | failed own =>
      refine ⟨by simp, ?_⟩
      intro failure same
      rw [Program.Outcome.failed.inj same]
    | waiting machine spare => simp

variable {i : Interpreter σ}

theorem neverSinks_of_resumes {job later : Job}
    (never : ∀ placed ∈ Instruction.ofTokens tokens, placed.instruction.sinks = false)
    (prepared : i.prepare tokens = .ok job) (resumes : job.Resumes σ later) :
    later.program.NeverSinks σ later.machine := by
  obtain ⟨resolved, front, -⟩ := prepare_eq_ok prepared
  have start : Aligned tokens job.machine.cursor := front ▸ aligned_zero tokens
  have steady := @Program.neverSinks_of_tokens σ _ _ _ _ never resolved start
  obtain ⟨same, reaches⟩ := resumes.reaches
  rw [same]
  exact steady.of_reaches reaches

/-- Bubbles below those that a run starts from are nothing to it, if no instruction of the stream
sinks a bubble and the run does not lack any: with them it stops in the same way after as many
instructions, its reads are answered the same, it writes the same, and they lie below what it
leaves. If it has to wait, that is true again when it is taken up. -/
theorem execute_local
    (never : ∀ placed ∈ Instruction.ofTokens tokens, placed.instruction.sinks = false)
    (enough : (i.execute tokens).outcome.underflows = false) (base : Abyss) :
    (i.above base).execute tokens = (i.execute tokens).above base ∧
    (i.above base).answersOf tokens = i.answersOf tokens ∧
    (i.above base).textsOf (.tokens tokens) = i.textsOf (.tokens tokens) ∧
    ((i.above base).runTokens tokens).2 = (i.runTokens tokens).2 ∧
    ∀ job later (host : σ), i.prepare tokens = .ok job → job.Resumes σ later →
      (later.execute host).outcome.underflows = false → later.Local host base := by
  have first : (i.above base).execute tokens = (i.execute tokens).above base ∧
      (i.above base).answersOf tokens = i.answersOf tokens ∧
      (i.above base).textsOf (.tokens tokens) = i.textsOf (.tokens tokens) := by
    have prepares := i.prepare_above base tokens
    cases prepared : i.prepare tokens with
    | error failure =>
      rw [prepared] at prepares
      rw [execute, execute, answersOf, answersOf, textsOf, textsOf, jobOf, jobOf, prepares,
        prepared]
      exact ⟨rfl, rfl, rfl⟩
    | ok job =>
      rw [execute, prepared] at enough
      have alike := Job.local_of_neverSinks (neverSinks_of_resumes never prepared .refl) enough base
      rw [prepared] at prepares
      rw [execute, execute, answersOf, answersOf, textsOf, textsOf, jobOf, jobOf, prepares,
        prepared]
      exact ⟨alike.execute, alike.answers, alike.texts⟩
  refine ⟨first.1, first.2.1, first.2.2, ?_, ?_⟩
  · rw [(runTokens_of_execute _ _).1, (runTokens_of_execute _ _).1, first.1,
      Program.Stop.callsAfter_above]
    rfl
  · intro job later host prepared resumes goes
    exact Job.local_of_neverSinks (neverSinks_of_resumes never prepared resumes) goes base

theorem execute_local_pair :
    (execute ⟨Buffer.ofLines ["5"], ⟨[.scalar 2, .scalar 9]⟩, .empty, 0⟩
      [4, 11, 20, 7, 2, 16, 7, 9, 2, 8, 2]).outcome = .ended ∧
    execute ⟨Buffer.ofLines ["5"], ⟨[.scalar 2, .scalar 9, .scalar 0, .scalar 1]⟩, .empty, 0⟩
      [4, 11, 20, 7, 2, 16, 7, 9, 2, 8, 2] =
        ⟨.ended, ⟨[.double [.scalar 9, .scalar 7], .scalar 0, .scalar 1]⟩, ⟨[.run]⟩, 6,
          ⟨["5"], [], ["9 7"]⟩⟩ := by
  have never : ∀ placed ∈ Instruction.ofTokens [4, 11, 20, 7, 2, 16, 7, 9, 2, 8, 2],
      placed.instruction.sinks = false := by
    decide +kernel
  have ended : (execute ⟨Buffer.ofLines ["5"], ⟨[.scalar 2, .scalar 9]⟩, .empty, 0⟩
      [4, 11, 20, 7, 2, 16, 7, 9, 2, 8, 2]).outcome = .ended := by
    decide +kernel
  have enough : (execute ⟨Buffer.ofLines ["5"], ⟨[.scalar 2, .scalar 9]⟩, .empty, 0⟩
      [4, 11, 20, 7, 2, 16, 7, 9, 2, 8, 2]).outcome.underflows = false := by
    rw [ended]
    rfl
  refine ⟨ended, (execute_local never enough ⟨[.scalar 0, .scalar 1]⟩).1.trans ?_⟩
  rfl

/-- A bubble that sinks to the bottom goes below those that are not its own. -/
example :
    (execute ⟨Buffer.ofLines [], ⟨[.scalar 2, .scalar 1, .scalar 0]⟩, .empty, 0⟩ [6, 0]).abyss ≠
      (execute ⟨Buffer.ofLines [], ⟨[.scalar 2, .scalar 1]⟩, .empty, 0⟩ [6, 0]).abyss.above
        ⟨[.scalar 0]⟩ := by
  decide +kernel

end Interpreter

end AwaLang
