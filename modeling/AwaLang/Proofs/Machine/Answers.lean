import AwaLang.Proofs.Machine.Exchanges

namespace AwaLang

def Reading.lines : Reading → List String
  | line text => [text]
  | endOfInput | notYet | broken _ => []

variable {σ : Type} [Host σ]

/-- What becomes of a host that is read from, with these answers, and written to. The last read may
have to wait. -/
inductive Host.Serves : σ → List Reading → Bool → σ → Prop
  | done (host : σ) : Serves host [] false host
  | waits {host after : σ} (late : Host.read host = (.notYet, after)) : Serves host [] true after
  | read {host last : σ} {answers : List Reading} {waits : Bool}
      (answered : (Host.read host).1 ≠ .notYet)
      (rest : Serves (Host.read host).2 answers waits last) :
      Serves host ((Host.read host).1 :: answers) waits last
  | write {host after last : σ} {text : String} {answers : List Reading} {waits : Bool}
      (taken : Host.write host text = .ok after) (rest : Serves after answers waits last) :
      Serves host answers waits last

theorem Host.Serves.single {host after : σ} {answer : Reading}
    (reading : Host.read host = (answer, after)) (answered : answer ≠ .notYet) :
    Host.Serves host [answer] false after := by
  have served : Host.Serves host [(Host.read host).1] false (Host.read host).2 := by
    apply Host.Serves.read
    · rw [reading]
      exact answered
    · exact .done (Host.read host).2
  rwa [reading] at served

namespace Program

def answerAt (program : Program) (machine : Machine) (host : σ) : List Reading :=
  if program.readsAt machine = true ∧ (Host.read host).1 ≠ .notYet then [(Host.read host).1] else []

def answers (program : Program) (spare : Nat) (machine : Machine) (host : σ) : List Reading :=
  program.answerAt machine host ++
    match program.turn machine host with
    | .done _ next host =>
      match spare with
      | 0 => []
      | spare + 1 => answers program spare next host
    | _ => []

variable {program : Program} {machine : Machine} {host after : σ} {turn : Turn σ}

theorem answered_of_turn (reads : program.readsAt machine = true)
    (taken : program.turn machine host = turn) (goes : turn.waits = false) :
    (Host.read host).1 ≠ .notYet := by
  intro late
  obtain ⟨calls, waits⟩ := turn_eq_waiting_iff.2 ⟨reads, Prod.ext late rfl⟩
  rw [← taken, waits] at goes
  contradiction

theorem length_answerAt (taken : program.turn machine host = turn) (goes : turn.waits = false) :
    (program.answerAt machine host).length = (program.readsAt machine).toNat := by
  cases reads : program.readsAt machine with
  | false =>
    rw [answerAt, reads]
    rfl
  | true =>
    rw [answerAt, if_pos ⟨reads, answered_of_turn reads taken goes⟩]
    rfl

theorem answerAt_of_waiting {calls : CallStack}
    (taken : program.turn machine host = .waiting calls after) :
    program.answerAt machine host = [] := by
  have late := (turn_eq_waiting_iff.1 ⟨calls, taken⟩).2
  rw [answerAt, if_neg]
  intro own
  exact own.2 (congrArg Prod.fst late)

theorem serves_of_turn (taken : program.turn machine host = turn) (goes : turn.waits = false)
    {answers : List Reading} {waits : Bool} {last : σ}
    (rest : Host.Serves (turn.host host) answers waits last) :
    Host.Serves host (program.answerAt machine host ++ answers) waits last := by
  subst taken
  cases reads : program.readsAt machine with
  | false =>
    rw [answerAt, reads]
    rcases host_turn_of_not_readsAt reads host with same | ⟨text, written⟩
    · rwa [same] at rest
    · exact .write written rest
  | true =>
    have answered := answered_of_turn reads rfl goes
    rw [host_turn_of_readsAt reads] at rest
    rw [answerAt, if_pos ⟨reads, answered⟩]
    exact .read answered rest

theorem serves_execute (program : Program) (spare : Nat) (machine : Machine) (host : σ) :
    Host.Serves host (program.answers spare machine host)
      (program.execute spare machine host).outcome.waits
      (program.execute spare machine host).host := by
  fun_induction program.execute spare machine host with
  | case1 spare machine host steps taken =>
    rw [answers.eq_def, taken]
    exact serves_of_turn taken rfl (.done host)
  | case2 spare machine host steps failure left after taken =>
    rw [answers.eq_def, taken]
    exact serves_of_turn taken rfl (.done after)
  | case3 spare machine host steps calls after taken =>
    rw [answers.eq_def, taken, answerAt_of_waiting taken]
    exact .waits (turn_eq_waiting_iff.1 ⟨calls, taken⟩).2
  | case4 machine host calls next after taken =>
    rw [answers, taken]
    exact serves_of_turn taken rfl (.done after)
  | case5 machine host calls next after taken spare ih =>
    rw [answers, taken]
    exact serves_of_turn taken rfl ih

theorem length_answers (program : Program) (spare : Nat) (machine : Machine) (host : σ) :
    (program.answers spare machine host).length +
        (program.execute spare machine host).outcome.waits.toNat =
      program.reads spare machine host := by
  fun_induction program.execute spare machine host with
  | case1 spare machine host steps taken =>
    rw [reads_of_stops (by simp [taken]), answers.eq_def, taken, List.append_nil,
      length_answerAt taken rfl]
    rfl
  | case2 spare machine host steps failure left after taken =>
    rw [reads_of_stops (by simp [taken]), answers.eq_def, taken, List.append_nil,
      length_answerAt taken rfl]
    rfl
  | case3 spare machine host steps calls after taken =>
    rw [reads_of_stops (by simp [taken]), answers.eq_def, taken, answerAt_of_waiting taken,
      (turn_eq_waiting_iff.1 ⟨calls, taken⟩).1]
    rfl
  | case4 machine host calls next after taken =>
    rw [reads_zero, answers, taken, List.append_nil, length_answerAt taken rfl]
    rfl
  | case5 machine host calls next after taken spare ih =>
    rw [reads_of_done taken, answers, taken, List.length_append, length_answerAt taken rfl, ← ih]
    dsimp only
    omega

end Program

structure Host.Keeps (P : σ → Prop) : Prop where
  read : ∀ host, P host → P (Host.read host).2
  write : ∀ host text after, P host → Host.write host text = .ok after → P after

structure Host.Counts (P : σ → Prop) (size : σ → Nat) : Prop extends Host.Keeps P where
  waits : ∀ host after, P host → Host.read host = (.notYet, after) → size after = size host
  answers : ∀ host, P host → (Host.read host).1 ≠ .notYet →
    size (Host.read host).2 + 1 = size host
  writes : ∀ host text after, P host → Host.write host text = .ok after → size after = size host

variable {P : σ → Prop} {size : σ → Nat} {program : Program} {machine : Machine} {host last : σ}
  {given : List Reading} {waits : Bool} {turn : Turn σ}

theorem Host.Keeps.of_turn (keeps : Host.Keeps P) (held : P host)
    (taken : program.turn machine host = turn) : P (turn.host host) := by
  rw [← taken]
  cases reads : program.readsAt machine with
  | true =>
    rw [Program.host_turn_of_readsAt reads]
    exact keeps.read host held
  | false =>
    rcases Program.host_turn_of_not_readsAt reads host with same | ⟨text, written⟩
    · rw [same]
      exact held
    · exact keeps.write host text _ held written

theorem Host.Keeps.of_serves (keeps : Host.Keeps P) (serves : Host.Serves host given waits last)
    (held : P host) : P last := by
  induction serves with
  | done => exact held
  | @waits host after late =>
    have next := keeps.read host held
    rwa [late] at next
  | @read host last given waits answered rest ih => exact ih (keeps.read host held)
  | @write host after last text given waits taken rest ih =>
    exact ih (keeps.write host text after held taken)

theorem Host.Counts.of_serves (counts : Host.Counts P size)
    (serves : Host.Serves host given waits last) (held : P host) :
    given.length + size last = size host := by
  induction serves with
  | done => exact Nat.zero_add _
  | @waits host after late =>
    rw [counts.waits host after held late]
    exact Nat.zero_add _
  | @read host last given waits answered rest ih =>
    have later := ih (counts.toKeeps.read host held)
    have first := counts.answers host held answered
    rw [List.length_cons]
    omega
  | @write host after last text given waits taken rest ih =>
    rw [ih (counts.toKeeps.write host text after held taken)]
    exact counts.writes host text after held taken

def Job.answers (job : Job) (host : σ) : List Reading :=
  job.program.answers job.spare job.machine host

namespace Interpreter

def answersOf (i : Interpreter σ) (tokens : List Token) : List Reading :=
  match i.prepare tokens with
  | .ok job => job.answers i.host
  | .error _ => []

def answers (i : Interpreter σ) : Submission → List Reading
  | .tokens tokens => i.answersOf tokens
  | .source text =>
    match Source.decode text with
    | .ok tokens => i.answersOf tokens
    | .error _ => []

theorem serves_advance (job : Job) (host : σ) :
    Host.Serves host (job.answers host) (advance job host).1.waits (advance job host).2.host := by
  rw [advance_waits, host_advance]
  exact Program.serves_execute job.program job.spare job.machine host

theorem serves_runTokens (i : Interpreter σ) (tokens : List Token) :
    Host.Serves i.host (i.answersOf tokens) (i.runTokens tokens).1.waits
      (i.runTokens tokens).2.host := by
  rw [runTokens, answersOf]
  cases i.prepare tokens with
  | ok job => exact serves_advance job i.host
  | error failure => exact .done i.host

theorem serves_run (i : Interpreter σ) (submission : Submission) :
    Host.Serves i.host (i.answers submission) (i.run submission).1.waits
      (i.run submission).2.host := by
  cases submission with
  | tokens tokens => exact serves_runTokens i tokens
  | source text =>
    rw [run, runSource, answers]
    cases Source.decode text with
    | ok tokens => exact serves_runTokens i tokens
    | error fault => exact .done i.host

theorem length_answers (job : Job) (host : σ) :
    (job.answers host).length + (advance job host).1.waits.toNat = job.reads host := by
  rw [advance_waits]
  exact Program.length_answers job.program job.spare job.machine host

end Interpreter

theorem Host.Keeps.advance (keeps : Host.Keeps P) (held : P host) (job : Job) :
    P (Interpreter.advance job host).2.host :=
  keeps.of_serves (Interpreter.serves_advance job host) held

theorem Host.Keeps.run (keeps : Host.Keeps P) {i : Interpreter σ} (held : P i.host)
    (submission : Submission) : P (i.run submission).2.host :=
  keeps.of_serves (i.serves_run submission) held

theorem Host.Counts.advance (counts : Host.Counts P size) (held : P host) (job : Job) :
    job.reads host + size (Interpreter.advance job host).2.host =
      size host + (Interpreter.advance job host).1.waits.toNat := by
  have taken := counts.of_serves (Interpreter.serves_advance job host) held
  have reads := Interpreter.length_answers job host
  omega

end AwaLang
