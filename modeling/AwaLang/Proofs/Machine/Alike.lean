import AwaLang.Proofs.Machine.Images
import AwaLang.Proofs.Machine.Texts

/-!
Hosts that a run cannot tell apart. What is asked of them is counted: two hosts that are alike for
as many reads and texts as a run has are the same to it, however they differ beyond these.
-/

namespace AwaLang

variable {σ : Type} [Host σ]

/-- A relation between hosts that are alike for a number of reads and a number of texts: the next
read has the same answer on both, the next text is taken by both, and after that they are alike for
one less. -/
structure Host.Alike (R : Nat → Nat → σ → σ → Prop) : Prop where
  read : ∀ reads texts host other, R (reads + 1) texts host other →
    (Host.read other).1 = (Host.read host).1 ∧
      R reads texts (Host.read host).2 (Host.read other).2
  write : ∀ reads texts host other text, R reads (texts + 1) host other →
    ∃ after second, Host.write host text = .ok after ∧ Host.write other text = .ok second ∧
      R reads texts after second

theorem Program.trail_eq_singleton_of_map {program : Program} {spare : Nat} {machine : Machine}
    {host other second : σ}
    (seen : program.turn machine other = (program.turn machine host).map fun _ => second)
    (last : program.trail spare machine host = [machine]) :
    program.trail spare machine other = [machine] := by
  rw [trail.eq_def, seen]
  cases taken : program.turn machine host with
  | ended | failed | waiting => rfl
  | done calls next after =>
    obtain rfl := spare_eq_zero_of_last last taken
    rfl

namespace Host.Alike

variable {R : Nat → Nat → σ → σ → Prop} {host other : σ}

theorem ofEffect (alike : Host.Alike R) (reads texts : Nat) {effect : Effect}
    (related : R (reads + effect.reads.toNat) (texts + effect.text?.toList.length) host other)
    (machine : Machine) :
    ∃ second, Turn.ofEffect machine other effect =
        (Turn.ofEffect machine host effect).map (fun _ => second) ∧
      R reads texts ((Turn.ofEffect machine host effect).host host)
        ((Turn.ofEffect machine other effect).host other) := by
  cases effect with
  | proceed | fail => exact ⟨other, rfl, related⟩
  | write text next =>
    obtain ⟨after, second, taken, also, later⟩ := alike.write reads texts host other text related
    simp only [Turn.ofEffect, taken, also]
    exact ⟨second, rfl, later⟩
  | read resume =>
    obtain ⟨same, later⟩ := alike.read reads texts host other related
    simp only [Turn.ofEffect]
    generalize Host.read host = answered at same later ⊢
    generalize Host.read other = also at same later ⊢
    obtain ⟨answer, after⟩ := answered
    obtain ⟨own, second⟩ := also
    dsimp only at same later
    subst same
    refine ⟨second, ?_⟩
    cases own with
    | line text =>
      dsimp only
      cases resume (some text) <;> exact ⟨rfl, later⟩
    | endOfInput =>
      dsimp only
      cases resume none <;> exact ⟨rfl, later⟩
    | notYet | broken => exact ⟨rfl, later⟩

theorem turn (alike : Host.Alike R) (reads texts : Nat) {program : Program} {machine : Machine}
    (related : R (reads + (program.readsAt machine).toNat)
      (texts + (program.textAt machine).toList.length) host other) :
    ∃ second, program.turn machine other =
        (program.turn machine host).map (fun _ => second) ∧
      R reads texts ((program.turn machine host).host host)
        ((program.turn machine other).host other) := by
  rcases program.exists_effect σ machine with ⟨frame, effect, kind, text, same⟩ |
    ⟨silent, untold, ended | ⟨failure, left, failed⟩⟩
  · rw [← kind, ← text] at related
    rw [same, same]
    exact alike.ofEffect reads texts related _
  · rw [silent, untold] at related
    rw [ended, ended]
    exact ⟨other, rfl, related⟩
  · rw [silent, untold] at related
    rw [failed, failed]
    exact ⟨other, rfl, related⟩

/-- A run is the same on hosts that are alike for its reads and its texts, and what is left of the
likeness is left to the runs after it. -/
theorem execute (alike : Host.Alike R) (reads texts : Nat) {program : Program} {spare : Nat}
    {machine : Machine}
    (related : R (reads + program.reads spare machine host)
      (texts + (program.texts spare machine host).length) host other) :
    program.trail spare machine other = program.trail spare machine host ∧
      ∃ second, program.execute spare machine other =
          (program.execute spare machine host).map (fun _ => second) ∧
        R reads texts (program.execute spare machine host).host second := by
  induction spare, machine, host using Program.turns_induction σ program generalizing other with
  | last spare machine host last =>
    rw [Program.reads_of_last last, Program.texts_of_last last] at related
    obtain ⟨second, seen, later⟩ := alike.turn reads texts related
    have also := Program.trail_eq_singleton_of_map seen last
    rw [Program.execute_of_last last, Program.execute_of_last also, last, also, seen]
    refine ⟨rfl, (program.turn machine other).host other, ?_, ?_⟩
    · rw [seen]
      cases program.turn machine host <;> rfl
    · rw [Turn.host_stop]
      exact later
  | more spare machine host calls next after taken ih =>
    -- This turn uses up its own read and text, and leaves the others to the turns after it.
    rw [Program.reads_of_done taken, Program.texts_of_done taken, List.length_append,
      Nat.add_comm _ (List.length (program.texts spare next after)), ← Nat.add_assoc,
      ← Nat.add_assoc] at related
    obtain ⟨second, seen, later⟩ := alike.turn _ _ related
    rw [seen, taken] at later
    rw [taken] at seen
    obtain ⟨trail, last, stop, left⟩ := ih later
    rw [Program.trail_of_done seen, Program.trail_of_done taken, Program.execute_of_done seen,
      Program.execute_of_done taken]
    exact ⟨congrArg (machine :: ·) trail, last, stop, left⟩

theorem advance (alike : Host.Alike R) (reads texts : Nat) {job : Job}
    (related : R (reads + job.reads host) (texts + (job.texts host).length) host other) :
    job.reads other = job.reads host ∧ job.texts other = job.texts host ∧
      ∃ second, Interpreter.advance job other =
          ((Interpreter.advance job host).1, (Interpreter.advance job host).2.map fun _ => second) ∧
        R reads texts (Interpreter.advance job host).2.host second := by
  obtain ⟨trail, second, stop, left⟩ := alike.execute reads texts related
  refine ⟨congrArg (List.countP _) trail, congrArg (List.filterMap _) trail, second, ?_, ?_⟩
  · rw [Interpreter.advance, Interpreter.advance, stop]
    dsimp only [Program.Stop.map]
    cases (job.program.execute job.spare job.machine host).outcome <;> rfl
  · rw [Interpreter.host_advance]
    exact left

theorem run (alike : Host.Alike R) (reads texts : Nat) {i : Interpreter σ} {submission : Submission}
    (related : R (reads + i.readsOf submission) (texts + (i.textsOf submission).length) i.host
      other) :
    { i with host := other }.readsOf submission = i.readsOf submission ∧
      { i with host := other }.textsOf submission = i.textsOf submission ∧
      ∃ second, { i with host := other }.run submission =
          ((i.run submission).1, (i.run submission).2.map fun _ => second) ∧
        R reads texts (i.run submission).2.host second := by
  have same := i.jobOf_with_host other submission
  rcases i.run_cases submission with
    ⟨job, begins, runs⟩ | ⟨refused, failure, abyss, calls, steps, runs⟩
  · have here : i.run submission = Interpreter.advance job i.host := runs i.host
    rw [Interpreter.readsOf_of_begins begins, Interpreter.textsOf_of_begins begins] at related ⊢
    rw [Interpreter.readsOf_of_begins (same.trans begins),
      Interpreter.textsOf_of_begins (same.trans begins), here, runs other]
    exact alike.advance reads texts related
  · have here : i.run submission = (.failed failure, ⟨i.host, abyss, calls, steps⟩) := runs i.host
    rw [Interpreter.readsOf_of_refused refused, Interpreter.textsOf_of_refused refused] at related ⊢
    rw [Interpreter.readsOf_of_refused (same.trans refused),
      Interpreter.textsOf_of_refused (same.trans refused), here, runs other]
    exact ⟨rfl, rfl, other, rfl, related⟩

end Host.Alike

end AwaLang
