import AwaLang.Host.Buffer
import AwaLang.Proofs.Interpreter.Normal
import AwaLang.Proofs.Machine.Images

/-!
Isolation of the runs on one interpreter. What was run before shows only in the lines that are still
unread and in the texts that were written already: but for those, each run is one on a new
interpreter.
-/

namespace AwaLang

namespace Buffer

def onto (earlier : List String) (buffer : Buffer) : Buffer :=
  { buffer with writes := buffer.writes ++ earlier }

theorem read_ne_notYet (buffer : Buffer) : (Host.read buffer).1 ≠ .notYet := by
  obtain ⟨lines, _ | ⟨line, rest⟩, writes⟩ := buffer
  · exact nofun
  · exact nofun

theorem image_onto (earlier : List String) : Host.Image (fun _ => True) (onto earlier) where
  read _ _ := trivial
  write _ _ _ _ _ := trivial
  waits buffer after _ late := absurd (congrArg Prod.fst late) buffer.read_ne_notYet
  answers buffer _ _ := by
    obtain ⟨lines, _ | ⟨line, rest⟩, writes⟩ := buffer <;> rfl
  writes _ _ _ := rfl

end Buffer

namespace Interpreter

theorem advance_waits_buffer (job : Job) (buffer : Buffer) :
    (advance job buffer).1.waits = false := by
  cases report : (advance job buffer).1 with
  | finished | failed => rfl
  | waiting later =>
    obtain ⟨-, before, late⟩ := read_of_advance report
    exact absurd (congrArg Prod.fst late) before.read_ne_notYet

theorem runTokens_waits_buffer (i : Interpreter Buffer) (tokens : List Token) :
    (i.runTokens tokens).1.waits = false := by
  rw [runTokens]
  split
  · exact advance_waits_buffer _ i.host
  · rfl

/-- Neither the frames nor the steps of earlier runs matter to the next one. -/
theorem prepare_congr {σ τ : Type} {i : Interpreter σ} {j : Interpreter τ}
    (same : i.abyss = j.abyss) (tokens : List Token) : i.prepare tokens = j.prepare tokens := by
  rw [prepare, prepare, start_eq, start_eq, same, calls_resolving, calls_resolving,
    steps_resolving, steps_resolving]

theorem runTokens_onto {i : Interpreter Buffer} (empty : i.abyss = .empty) (tokens : List Token) :
    i.runTokens tokens =
      (((new i.host.forgetWrites).runTokens tokens).1,
        ((new i.host.forgetWrites).runTokens tokens).2.map (.onto i.host.writes)) := by
  -- Frames and steps that were left are cleared before either of the two begins.
  have same : i.prepare tokens = (new i.host.forgetWrites).prepare tokens :=
    prepare_congr empty tokens
  rw [runTokens, runTokens, same]
  cases (new i.host.forgetWrites).prepare tokens with
  | error failure => rfl
  | ok job =>
    have goes := advance_waits_buffer job i.host.forgetWrites
    exact ((Buffer.image_onto i.host.writes).advance_of_goes trivial goes).1

variable {σ : Type} [Host σ]

/-- A failed run leaves the frames on the stack that its failure tells of. -/
theorem frames_of_failed {i : Interpreter σ} {tokens : List Token} {failure : Failure}
    (failed : (i.runTokens tokens).1 = .failed failure) :
    (i.runTokens tokens).2.calls.frames = failure.frames := by
  rw [runTokens] at failed ⊢
  cases prepared : i.prepare tokens with
  | error own =>
    rw [prepared, Report.failed.injEq] at failed
    rw [← failed, (prepare_eq_error prepared).2]
    rfl
  | ok job =>
    rw [prepared] at failed
    have outcome := outcome_of_advance_failed failed
    have copied := Program.failure_eq_of_execute outcome
    simp only [snd_advance, Program.Stop.callsAfter, outcome]
    exact (congrArg Failure.frames copied).symm

theorem calls_of_finished {i : Interpreter σ} {tokens : List Token} {result : Bubble}
    (finished : (i.runTokens tokens).1 = .finished result) :
    (i.runTokens tokens).2.calls = .empty := by
  rw [runTokens] at finished ⊢
  cases prepared : i.prepare tokens with
  | error failure => simp [prepared] at finished
  | ok job =>
    obtain ⟨-, front, -⟩ := prepare_eq_ok prepared
    rw [prepared] at finished
    have outcome := (outcome_of_advance_finished finished).1
    simp only [snd_advance, Program.Stop.callsAfter, outcome]
    rw [Program.calls_of_ended outcome, front]
    rfl

def afterRuns (i : Interpreter σ) (history : List Submission) : Interpreter σ :=
  history.foldl (fun i submission => (i.run submission).2) i

theorem abyss_afterRuns {i : Interpreter σ} (empty : i.abyss = .empty)
    (history : List Submission) : (i.afterRuns history).abyss = .empty := by
  induction history generalizing i with
  | nil => exact empty
  | cons submission history ih => exact ih (abyss_run_of_empty empty submission)

/-- Whatever was run before and however it ended, the abyss is empty, and a stream runs as it does
on a new interpreter that has the same lines left: to the same report, with the same frames, steps
and reads, and with the same texts, which come after those written before. What a run leaves on the
stack is what its failure tells of, and nothing if it ends; the next stream does not see it. A
source that cannot be decoded changes nothing. -/
theorem runs_isolated (buffer : Buffer) (history : List Submission) :
    let i := (new buffer).afterRuns history
    i.abyss = .empty ∧
    (∀ tokens,
      let own := i.runTokens tokens
      let fresh := (new i.host.forgetWrites).runTokens tokens
      own.1 = fresh.1 ∧ own.1.waits = false ∧ own.2.abyss = .empty ∧ own.2.steps = fresh.2.steps ∧
        own.2.calls = fresh.2.calls ∧ own.2.host.lines = fresh.2.host.lines ∧
        own.2.host.unread = fresh.2.host.unread ∧
        own.2.host.writes = fresh.2.host.writes ++ i.host.writes ∧
        (∀ failure, own.1 = .failed failure → own.2.calls.frames = failure.frames) ∧
        ∀ result, own.1 = .finished result → own.2.calls = .empty) ∧
    ∀ text,
      (∀ tokens, Source.decode text = .ok tokens → i.run (.source text) = i.runTokens tokens) ∧
      ∀ fault, Source.decode text = .error fault →
        i.run (.source text) = (.failed ⟨.malformedSource fault, [.tokenize]⟩, i) := by
  intro i
  have empty : i.abyss = .empty := abyss_afterRuns rfl history
  refine ⟨empty, ?_, ?_⟩
  · intro tokens own fresh
    have same : own = (fresh.1, fresh.2.map (.onto i.host.writes)) := runTokens_onto empty tokens
    have goes : own.1.waits = false := runTokens_waits_buffer i tokens
    have cleared : own.2.abyss = .empty := abyss_runTokens i tokens
    have told : ∀ failure, own.1 = .failed failure → own.2.calls.frames = failure.frames := by
      intro failure failed
      exact frames_of_failed failed
    have balanced : ∀ result, own.1 = .finished result → own.2.calls = .empty := by
      intro result finished
      exact calls_of_finished finished
    rw [same] at goes cleared told balanced ⊢
    exact ⟨rfl, goes, cleared, rfl, rfl, rfl, rfl, rfl, told, balanced⟩
  · intro text
    constructor
    · intro tokens decoded
      rw [run, runSource, decoded]
    · intro fault refused
      rw [run, runSource, refused]
      rfl

/-- A run that ends, one that fails of a line with a bubble in the abyss, and a source without a
start; then the first stream again, which reads the line that is left. The frames and the step of
the second run are still there before it. -/
theorem runs_isolated_after_failures :
    let i := (new (Buffer.ofLines ["4", "x", "7"])).afterRuns
      [.tokens [4, 2], .tokens [5, 3, 4], .source "w"]
    i.host = ⟨["4", "x", "7"], ["7"], ["4"]⟩ ∧
    i.calls.frames = [.run, .instruction .r3d 2] ∧ i.steps = 1 ∧
    (i.runTokens [4, 2]).1 = ((new i.host.forgetWrites).runTokens [4, 2]).1 ∧
    (i.runTokens [4, 2]).2.calls = .empty ∧ (i.runTokens [4, 2]).2.steps = 2 ∧
    (i.runTokens [4, 2]).2.host.writes = ["7"] ++ ["4"] ∧
    i.run (.source "w") = (.failed ⟨.malformedSource .missingStart, [.tokenize]⟩, i) := by
  intro i
  have host : i.host = ⟨["4", "x", "7"], ["7"], ["4"]⟩ := by decide +kernel
  have after : (new i.host.forgetWrites).runTokens [4, 2] =
      (.finished (.scalar 0), ⟨⟨["4", "x", "7"], [], ["7"]⟩, .empty, .empty, 2⟩) := by
    rw [host]
    rfl
  have refused : Source.decode "w" = .error .missingStart := by rfl
  obtain ⟨-, streams, sources⟩ := runs_isolated (Buffer.ofLines ["4", "x", "7"])
    [.tokens [4, 2], .tokens [5, 3, 4], .source "w"]
  obtain ⟨report, -, -, steps, calls, -, -, writes, -, -⟩ := streams [4, 2]
  refine ⟨host, by decide +kernel, by decide +kernel, report, ?_, ?_, ?_,
    (sources "w").2 _ refused⟩
  · rw [calls, after]
  · rw [steps, after]
  · rw [writes, after, host]

end Interpreter

end AwaLang
