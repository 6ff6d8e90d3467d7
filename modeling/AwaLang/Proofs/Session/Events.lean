import Mathlib.Data.List.Chain
import AwaLang.Proofs.Session.Reads

namespace AwaLang

inductive ReadOperation
  | pending
  | completed (answer : Reading)
  deriving DecidableEq, Repr

namespace ReadOperation

def events : ReadOperation → List Event
  | pending => [.waiting]
  | completed _ => [.waiting, .resumed]

def ofAnswers (answers : List Reading) (waits : Bool) : List ReadOperation :=
  answers.map .completed ++ if waits then [.pending] else []

theorem length_ofAnswers (answers : List Reading) (waits : Bool) :
    (ofAnswers answers waits).length = answers.length + waits.toNat := by
  rw [ofAnswers, List.length_append, List.length_map]
  cases waits <;> rfl

def isCompleted : ReadOperation → Bool
  | pending => false
  | completed _ => true

theorem count_waiting (operations : List ReadOperation) :
    (operations.flatMap events).count .waiting = operations.length := by
  induction operations with
  | nil => rfl
  | cons operation rest ih =>
    rw [List.flatMap_cons, List.count_append, ih, List.length_cons, Nat.add_comm]
    cases operation <;> rfl

theorem count_resumed (operations : List ReadOperation) :
    (operations.flatMap events).count .resumed = operations.countP isCompleted := by
  induction operations with
  | nil => rfl
  | cons operation rest ih =>
    rw [List.flatMap_cons, List.count_append, ih, List.countP_cons, Nat.add_comm]
    cases operation <;> rfl

theorem head?_flatMap_events (operations : List ReadOperation) :
    ∀ event ∈ (operations.flatMap events).head?, event = .waiting := by
  intro event first
  cases operations with
  | nil => contradiction
  | cons operation rest =>
    cases operation with
    | pending | completed => exact (Option.some.inj first).symm

theorem isChain_events (operations : List ReadOperation) :
    (operations.flatMap events).IsChain fun before after =>
      after = .resumed → before = .waiting := by
  induction operations with
  | nil => exact .nil
  | cons operation rest ih =>
    rw [List.flatMap_cons, List.isChain_append]
    refine ⟨by cases operation <;> simp [events], ih, ?_⟩
    intro before _ after first resumed
    rw [head?_flatMap_events rest after first] at resumed
    contradiction

end ReadOperation

namespace Channel

open ReadOperation

variable {channel after : Channel} {answers : List Reading} {waits : Bool} {earlier : List Event}

def Said (channel : Channel) (earlier : List Event) : Prop :=
  channel.events.emitted = earlier ++ if channel.reading then [.waiting] else []

theorem said_beginRead (said : channel.Said earlier) :
    channel.beginRead.Said earlier ∧ channel.beginRead.reading = true := by
  unfold beginRead
  split
  · rename_i reading
    exact ⟨said, reading⟩
  · rename_i quiet
    rw [Said, if_neg quiet, List.append_nil] at said
    refine ⟨?_, rfl⟩
    rw [Said, EventLog.emitted_emit, said]
    rfl

theorem said_of_answered (said : channel.Said earlier)
    (answered : (Host.read channel).1 ≠ .notYet) :
    (Host.read channel).2.Said (earlier ++ [.waiting, .resumed]) ∧
      (Host.read channel).2.reading = false := by
  change channel.read.1 ≠ .notYet at answered
  change channel.read.2.Said (earlier ++ [.waiting, .resumed]) ∧ channel.read.2.reading = false
  have ended : channel.beginRead.endRead.Said (earlier ++ [.waiting, .resumed]) := by
    obtain ⟨begun, reading⟩ := said_beginRead said
    rw [Said, if_pos reading] at begun
    rw [Said, endRead, EventLog.emitted_emit, begun]
    simp
  rcases channel.read_cases with ⟨line, rest, -, answer⟩ | ⟨-, -, answer⟩ | ⟨-, -, answer⟩
  · rw [answer]
    exact ⟨ended, rfl⟩
  · rw [answer] at answered
    contradiction
  · rw [answer]
    exact ⟨ended, rfl⟩

theorem said_of_serves (serves : Host.Serves channel answers waits after)
    (said : channel.Said earlier)
    (goes : channel.reading = true → ofAnswers answers waits ≠ []) :
    after.events.emitted = earlier ++ (ofAnswers answers waits).flatMap ReadOperation.events ∧
      after.reading = waits := by
  induction serves generalizing earlier with
  | done channel =>
    -- A read that had begun would have been answered or would still wait.
    have quiet : channel.reading = false := by
      cases reading : channel.reading with
      | true => exact absurd rfl (goes reading)
      | false => rfl
    rw [Said, quiet] at said
    exact ⟨said, quiet⟩
  | @waits channel after late =>
    obtain ⟨-, -, rfl⟩ := of_read_notYet late
    obtain ⟨begun, reading⟩ := said_beginRead said
    rw [Said, reading] at begun
    exact ⟨begun, reading⟩
  | @read channel last answers waits answered rest ih =>
    obtain ⟨ended, quiet⟩ := said_of_answered said answered
    have onwards : (Host.read channel).2.reading = true → ofAnswers answers waits ≠ [] := by
      intro reading
      rw [quiet] at reading
      contradiction
    obtain ⟨emitted, reading⟩ := ih ended onwards
    refine ⟨?_, reading⟩
    rw [emitted, List.append_assoc]
    rfl
  | @write channel after last text answers waits taken rest ih =>
    obtain ⟨room, writes, rfl⟩ := exists_of_write taken
    exact ih said goes

end Channel

def Phase.isSuspended : Phase → Bool
  | suspended _ => true
  | idle | ready _ | gone => false

namespace Session

def Command.reads : Command → Bool
  | read | poll => true
  | send _ | close | subscribe | events | reset | start _ | abandon => false

theorem Command.not_polls {command : Command} (silent : command.reads = false) :
    command.polls = false := by
  cases command with
  | read | poll => contradiction
  | send | close | subscribe | events | reset | start | abandon => rfl

def takesUp (session : Session) : Command → Bool
  | .poll => session.phase.isSuspended
  | _ => false

/-- The reads that were begun by the end of a command. A run that is taken up goes on with the read
that was begun last. -/
def recorded (session : Session) (begun : List ReadOperation) (command : Command) :
    List ReadOperation :=
  (if session.takesUp command then begun.dropLast else begun) ++
    ReadOperation.ofAnswers (session.answers command) (session.step command).1.waits

def readsBegun (session : Session) (begun : List ReadOperation) :
    List Command → List ReadOperation
  | [] => begun
  | command :: rest => readsBegun (session.step command).2 (session.recorded begun command) rest

variable {session : Session} {begun : List ReadOperation}

structure Quiet (session : Session) (outcome : Reply × Session) : Prop where
  answers : outcome.1.answers = []
  waits : outcome.1.waits = false
  emitted : outcome.2.channel.events.emitted = session.channel.events.emitted
  reading : outcome.2.channel.reading = session.channel.reading
  phase : outcome.2.phase = session.phase ∨ outcome.2.phase = .gone ∨
    session.phase = .idle ∧ ∃ submission, outcome.2.phase = .ready submission

theorem quiet_step {command : Command} (silent : command.reads = false) :
    session.Quiet (session.step command) := by
  cases command with
  | read | poll => contradiction
  | close | events => exact ⟨rfl, rfl, rfl, rfl, .inl rfl⟩
  | abandon => exact ⟨rfl, rfl, rfl, rfl, .inr (.inl rfl)⟩
  | send line =>
    rw [step]
    rcases session.send_cases line with ⟨-, -, -, sent⟩ | ⟨reply, among, same⟩
    · rw [sent]
      exact ⟨rfl, rfl, rfl, rfl, .inl rfl⟩
    · have refused := Reply.of_refused among
      rw [same]
      exact ⟨refused.1, refused.2, rfl, rfl, .inl rfl⟩
  | subscribe =>
    rw [step, subscribe]
    split <;> exact ⟨rfl, rfl, rfl, rfl, .inl rfl⟩
  | reset =>
    rw [step]
    split <;> exact ⟨rfl, rfl, rfl, rfl, .inl rfl⟩
  | start submission =>
    rw [step, start.eq_def]
    split
    · exact ⟨rfl, rfl, rfl, rfl, .inl rfl⟩
    · split
      · rename_i idle
        exact ⟨rfl, rfl, rfl, rfl, .inr (.inr ⟨idle, _, rfl⟩)⟩
      · exact ⟨rfl, rfl, rfl, rfl, .inl rfl⟩

theorem recorded_of_not_polls (command : Command) (other : command.polls = false) :
    session.recorded begun command =
      begun ++ ReadOperation.ofAnswers (session.step command).1.answers
        (session.step command).1.waits := by
  rw [recorded, session.answers_of_not_polls command other]
  cases command with
  | poll => contradiction
  | send | close | subscribe | events | read | reset | start | abandon => rfl

theorem recorded_of_quiet {command : Command} (other : command.polls = false)
    (quiet : session.Quiet (session.step command)) : session.recorded begun command = begun := by
  rw [recorded_of_not_polls command other, quiet.answers, quiet.waits]
  exact List.append_nil begun

/-- The events are those of the reads that were begun. A read is pending while a run is suspended,
and that read was begun last. -/
structure Books (begun : List ReadOperation) (session : Session) : Prop where
  emitted : session.channel.events.emitted = begun.flatMap ReadOperation.events
  pending : session.channel.reading = true → ∃ earlier, begun = earlier ++ [.pending]
  reading : session.phase ≠ .gone → session.channel.reading = session.phase.isSuspended
  reads : ∀ job, session.phase = .suspended job → job.program.readsAt job.machine = true

namespace Books

theorem new (capacity : Nat) (room : Option Nat) : Books [] (new capacity room) where
  emitted := rfl
  pending reading := absurd reading Bool.false_ne_true
  reading _ := rfl
  reads job suspended := by contradiction

theorem of_quiet (books : Books begun session) {outcome : Reply × Session}
    (quiet : session.Quiet outcome) : Books begun outcome.2 where
  emitted := quiet.emitted.trans books.emitted
  pending reading := books.pending (quiet.reading.symm.trans reading)
  reading there := by
    rw [quiet.reading]
    rcases quiet.phase with same | gone | ⟨idle, submission, ready⟩
    · rw [same] at there ⊢
      exact books.reading there
    · contradiction
    · rw [books.reading (by simp [idle]), idle, ready]
      rfl
  reads job suspended := by
    rcases quiet.phase with same | gone | ⟨idle, submission, ready⟩
    · exact books.reads job (same.symm.trans suspended)
    · rw [gone] at suspended
      contradiction
    · rw [ready] at suspended
      contradiction

theorem said (books : Books begun session) :
    session.channel.Said
      ((if session.channel.reading then begun.dropLast else begun).flatMap
        ReadOperation.events) := by
  rw [Channel.Said, books.emitted]
  cases reading : session.channel.reading with
  | false => exact (List.append_nil _).symm
  | true =>
    obtain ⟨earlier, rfl⟩ := books.pending reading
    simp [ReadOperation.events]

theorem of_read (books : Books begun session) (idle : session.phase = .idle) :
    Books (begun ++ ReadOperation.ofAnswers session.readOnce.1.answers session.readOnce.1.waits)
      session.readOnce.2 := by
  have quiet : session.channel.reading = false := by
    rw [books.reading (by simp [idle]), idle]
    rfl
  have said := books.said
  rw [quiet, if_neg Bool.false_ne_true] at said
  have pending : session.channel.reading = true →
      ReadOperation.ofAnswers session.readOnce.1.answers session.readOnce.1.waits ≠ [] := by
    intro reading
    rw [quiet] at reading
    contradiction
  obtain ⟨emitted, -⟩ := Channel.said_of_serves session.serves_readOnce said pending
  rw [session_readOnce]
  constructor
  · rw [List.flatMap_append]
    exact emitted
  · intro pending
    contradiction
  · intro _
    exact (congrArg Phase.isSuspended idle).symm
  · intro job suspended
    have same : session.phase = .suspended job := suspended
    rw [idle] at same
    contradiction

theorem of_settle (books : Books begun session) {answers : List Reading}
    {outcome : Report × Interpreter Channel}
    (serves : Host.Serves session.channel answers outcome.1.waits outcome.2.host)
    (goes : session.channel.reading = true → ReadOperation.ofAnswers answers outcome.1.waits ≠ [])
    (reads : ∀ job, outcome.1 = .waiting job → job.program.readsAt job.machine = true) :
    Books
      ((if session.channel.reading then begun.dropLast else begun) ++
        ReadOperation.ofAnswers answers outcome.1.waits)
      (settle outcome).2 := by
  obtain ⟨emitted, reading⟩ := Channel.said_of_serves serves books.said goes
  obtain ⟨report, interpreter⟩ := outcome
  constructor
  · rw [List.flatMap_append]
    exact emitted
  · intro pending
    have waits : report.waits = true := reading.symm.trans pending
    refine ⟨(if session.channel.reading then begun.dropLast else begun) ++
      answers.map .completed, ?_⟩
    rw [ReadOperation.ofAnswers, waits, List.append_assoc]
    rfl
  · intro _
    change interpreter.host.reading = (phaseAfter report).isSuspended
    rw [reading]
    cases report <;> rfl
  · intro job suspended
    cases report with
    | finished | failed => contradiction
    | waiting later =>
      apply reads
      exact congrArg Report.waiting (Phase.suspended.inj suspended)

theorem step_poll (books : Books begun session) :
    Books (session.recorded begun .poll) (session.step .poll).2 := by
  have carried (there : session.phase ≠ .gone) : session.recorded begun .poll =
      (if session.channel.reading then begun.dropLast else begun) ++
        ReadOperation.ofAnswers session.pollAnswers (session.step .poll).1.waits := by
    rw [books.reading there]
    rfl
  cases phase : session.phase with
  | idle | gone =>
    have same : session.recorded begun .poll = begun ∧ (session.step .poll).2 = session := by
      rw [recorded, takesUp, answers, pollAnswers, step, poll, phase]
      exact ⟨List.append_nil begun, rfl⟩
    rw [same.1, same.2]
    exact books
  | ready submission =>
    rw [carried (by simp [phase]), pollAnswers, step, poll, phase]
    apply books.of_settle
    · exact Interpreter.serves_run session.interpreter submission
    · intro reading
      rw [books.reading (by simp [phase]), phase] at reading
      contradiction
    · intro job waits
      exact Interpreter.readsAt_of_run waits
  | suspended job =>
    rw [carried (by simp [phase]), pollAnswers, step, poll, phase]
    apply books.of_settle
    · exact Interpreter.serves_advance job session.channel
    · intro _
      -- The read that the run was left waiting in is answered first, or waits again.
      have some : 0 < (job.answers session.channel).length +
          (Interpreter.advance job session.channel).1.waits.toNat := by
        rw [Interpreter.length_answers]
        exact Program.reads_pos (books.reads job phase) job.spare session.channel
      rw [← List.length_pos_iff, ReadOperation.length_ofAnswers]
      exact some
    · intro later waits
      exact (Interpreter.read_of_advance waits).1

theorem step (books : Books begun session) (command : Command) :
    Books (session.recorded begun command) (session.step command).2 := by
  have calm (silent : command.reads = false) :
      Books (session.recorded begun command) (session.step command).2 := by
    have quiet := @quiet_step session command silent
    rw [recorded_of_quiet (Command.not_polls silent) quiet]
    exact books.of_quiet quiet
  cases command with
  | poll => exact books.step_poll
  | read =>
    rw [recorded_of_not_polls .read rfl, Session.step]
    split
    · rename_i idle
      exact books.of_read idle
    · change Books (begun ++ []) session
      rw [List.append_nil]
      exact books
  | send | close | subscribe | events | reset | start | abandon => exact calm rfl

theorem play (books : Books begun session) (commands : List Command) :
    Books (session.readsBegun begun commands) (session.play commands).2 := by
  induction commands generalizing session begun with
  | nil => exact books
  | cons command commands ih => exact ih (books.step command)

end Books

theorem suspended_of_settle {outcome : Report × Interpreter Channel}
    (waits : outcome.1.waits = true) : ∃ job, (settle outcome).2.phase = .suspended job := by
  obtain ⟨job, report⟩ := Report.exists_of_waits waits
  exact ⟨job, congrArg phaseAfter report⟩

theorem poll_of_running (idle : session.phase ≠ .idle) (there : session.phase ≠ .gone) :
    (session.step .poll).1.ends = !(session.step .poll).1.waits ∧
      ((session.step .poll).1.waits = true →
        ∃ job, (session.step .poll).2.phase = .suspended job) := by
  rw [step, poll]
  cases phase : session.phase with
  | idle | gone => contradiction
  | ready | suspended => exact ⟨rfl, suspended_of_settle⟩

/-- A run that was begun after the reads of `front` and has not ended: what its reads were given,
and all reads that were begun. -/
inductive Runs (front : List ReadOperation) :
    List Reading → List ReadOperation → Session → Prop
  | ready {session : Session} {submission : Submission}
      (phase : session.phase = .ready submission) : Runs front [] front session
  | suspended {session : Session} {given : List Reading} {job : Job}
      (phase : session.phase = .suspended job) :
      Runs front given (front ++ given.map .completed ++ [.pending]) session
  | gone {session : Session} {given : List Reading} {begun : List ReadOperation}
      (phase : session.phase = .gone) : Runs front given begun session

namespace Runs

variable {front : List ReadOperation} {given : List Reading}

theorem idle_ne (runs : Runs front given begun session) : session.phase ≠ .idle := by
  intro idle
  cases runs with
  | ready phase | suspended phase | gone phase =>
    rw [phase] at idle
    contradiction

theorem of_quiet (runs : Runs front given begun session) {outcome : Reply × Session}
    (quiet : session.Quiet outcome) : Runs front given begun outcome.2 := by
  rcases quiet.phase with same | gone | ⟨idle, -⟩
  · cases runs with
    | ready phase => exact .ready (same.trans phase)
    | suspended phase => exact .suspended (same.trans phase)
    | gone phase => exact .gone (same.trans phase)
  · exact .gone gone
  · exact absurd idle runs.idle_ne

theorem recorded_poll (runs : Runs front given begun session) (there : session.phase ≠ .gone) :
    session.recorded begun .poll = front ++ (given ++ session.pollAnswers).map .completed ++
      if (session.step .poll).1.waits then [.pending] else [] := by
  cases runs with
  | gone phase => exact absurd phase there
  | ready phase =>
    rw [recorded, takesUp, phase, ReadOperation.ofAnswers, ← List.append_assoc]
    rfl
  | suspended phase =>
    rw [recorded, takesUp, phase, ReadOperation.ofAnswers]
    simp [Phase.isSuspended, answers]

theorem step (runs : Runs front given begun session) {command : Command}
    (goes : (session.step command).1.ends = false) :
    Runs front (given ++ session.answers command) (session.recorded begun command)
      (session.step command).2 := by
  have calm (silent : command.reads = false) :
      Runs front (given ++ session.answers command) (session.recorded begun command)
        (session.step command).2 := by
    have quiet := @quiet_step session command silent
    have other := Command.not_polls silent
    rw [recorded_of_quiet other quiet, session.answers_of_not_polls command other, quiet.answers,
      List.append_nil]
    exact runs.of_quiet quiet
  cases command with
  | send | close | subscribe | events | reset | start | abandon => exact calm rfl
  | read =>
    have refused : session.step .read = (.notIdle, session) := by
      rw [Session.step, if_neg runs.idle_ne]
    rw [recorded_of_not_polls .read rfl, session.answers_of_not_polls .read rfl, refused]
    change Runs front (given ++ []) (begun ++ []) session
    rw [List.append_nil, List.append_nil]
    exact runs
  | poll =>
    by_cases gone : session.phase = .gone
    · have same : (session.step .poll).2 = session := by rw [Session.step, poll, gone]
      rw [same]
      exact .gone gone
    · obtain ⟨ends, suspends⟩ := poll_of_running runs.idle_ne gone
      have waits : (session.step .poll).1.waits = true := by
        rw [goes] at ends
        simpa using ends.symm
      obtain ⟨job, phase⟩ := suspends waits
      rw [runs.recorded_poll gone, waits]
      exact .suspended phase

theorem play (runs : Runs front given begun session) {commands : List Command}
    (goes : ∀ reply ∈ (session.play commands).1, reply.ends = false) :
    Runs front (given ++ session.answersTo commands) (session.readsBegun begun commands)
      (session.play commands).2 := by
  induction commands generalizing session given begun with
  | nil =>
    rw [answersTo, List.append_nil]
    exact runs
  | cons command commands ih =>
    have parts := List.forall_mem_cons.1 goes
    have later := ih (runs.step parts.1) parts.2
    rw [List.append_assoc] at later
    exact later

end Runs

theorem events_of_completed (given : List Reading) :
    (given.map ReadOperation.completed).flatMap ReadOperation.events =
      (List.replicate given.length [.waiting, .resumed]).flatten := by
  induction given with
  | nil => rfl
  | cons answer given ih =>
    rw [List.map_cons, List.flatMap_cons, ih]
    rfl

theorem events_of_run {front : List ReadOperation} {given : List Reading}
    (books : Books begun session) (runs : Runs front given begun session)
    (ends : (session.step .poll).1.ends = true) :
    (session.step .poll).2.channel.events.emitted =
      front.flatMap ReadOperation.events ++
        (List.replicate (given ++ session.pollAnswers).length [.waiting, .resumed]).flatten := by
  have there : session.phase ≠ .gone := by
    intro gone
    rw [step, poll, gone] at ends
    contradiction
  have goes : (session.step .poll).1.waits = false := by
    have either := (poll_of_running runs.idle_ne there).1
    rw [ends] at either
    simpa using either.symm
  rw [(books.step .poll).emitted, runs.recorded_poll there, goes, if_neg Bool.false_ne_true,
    List.append_nil, List.flatMap_append, events_of_completed]

theorem start_of_idle (idle : session.phase = .idle) (submission : Submission) :
    (session.start (.ok submission)).2 = { session with phase := .ready submission } := by
  rw [start, if_pos idle]

theorem Books.last_of_suspended (books : Books begun session) {job : Job}
    (phase : session.phase = .suspended job) :
    session.channel.events.emitted.getLast? = some .waiting := by
  have reading : session.channel.reading = true := by
    rw [books.reading (by simp [phase]), phase]
    rfl
  obtain ⟨earlier, rfl⟩ := books.pending reading
  rw [books.emitted, List.flatMap_append]
  exact List.getLast?_concat

/-- The events of a session, whatever is done with it and in whatever order. They are those of its
reads, in the order in which these were begun: each says once that it waits, however often it is
tried again, and right after that it says that it goes on, if it is completed. While a run is
suspended, the last event is that it waits. A run that has ended has said both as often as it has
read. -/
theorem events_follow_reads (capacity : Nat) (room : Option Nat) (commands : List Command) :
    let now := ((new capacity room).play commands).2
    let begun := (new capacity room).readsBegun [] commands
    let emitted := now.channel.events.emitted
    emitted = begun.flatMap ReadOperation.events ∧
    emitted.IsChain (fun before after => after = .resumed → before = .waiting) ∧
    emitted.count .waiting = begun.length ∧
    emitted.count .resumed = begun.countP ReadOperation.isCompleted ∧
    emitted.count .resumed ≤ emitted.count .waiting ∧
    (∀ job, now.phase = .suspended job → emitted.getLast? = some .waiting) ∧
    ∀ submission more, now.phase = .idle →
      let run := (now.start (.ok submission)).2
      let last := (run.play more).2
      (∀ reply ∈ (run.play more).1, reply.ends = false) → (last.step .poll).1.ends = true →
      ∃ own, (last.step .poll).2.channel.events.emitted = emitted ++ own ∧
        own.count .waiting = (run.answersTo more ++ last.pollAnswers).length ∧
        own.count .resumed = (run.answersTo more ++ last.pollAnswers).length := by
  intro now begun emitted
  have books : now.Books begun := (Books.new capacity room).play commands
  have account : emitted = begun.flatMap ReadOperation.events := books.emitted
  have waiting : emitted.count .waiting = begun.length := by
    rw [account]
    exact ReadOperation.count_waiting begun
  have resumed : emitted.count .resumed = begun.countP ReadOperation.isCompleted := by
    rw [account]
    exact ReadOperation.count_resumed begun
  refine ⟨account, ?_, waiting, resumed, ?_, ?_, ?_⟩
  · rw [account]
    exact ReadOperation.isChain_events begun
  · rw [waiting, resumed]
    exact List.countP_le_length
  · intro job phase
    exact books.last_of_suspended phase
  · intro submission more idle run last goes ends
    have started : run = { now with phase := .ready submission } := start_of_idle idle submission
    have quiet := @quiet_step now (.start (.ok submission)) rfl
    have front : run.Books begun := books.of_quiet quiet
    have runs : Runs begun [] begun run := .ready (congrArg Session.phase started)
    refine ⟨(List.replicate (run.answersTo more ++ last.pollAnswers).length
      [.waiting, .resumed]).flatten, ?_, ?_, ?_⟩
    · rw [account]
      exact events_of_run (front.play more) (runs.play goes) ends
    · simp [List.count_flatten]
    · simp [List.count_flatten]

/-- A read that is not tried again and one that is answered at once; then a run of two reads, the
first of which is tried twice before its line comes, and the second of which meets the end of the
input. -/
theorem events_follow_reads_tried_again :
    let now := ((new 1 none).play [.read, .send "1", .read]).2
    let run := (now.start (.ok (.tokens [4, 4]))).2
    let last := (run.play [.poll, .poll, .send "2", .poll, .close]).2
    now.phase = .idle ∧ now.channel.events.emitted = [.waiting, .waiting, .resumed] ∧
    (last.step .poll).1.ends = true ∧
    ∃ own, (last.step .poll).2.channel.events.emitted =
        [.waiting, .waiting, .resumed] ++ own ∧
      own.count .waiting = 2 ∧ own.count .resumed = 2 := by
  intro now run last
  have idle : now.phase = .idle := by decide +kernel
  have emitted : now.channel.events.emitted = [.waiting, .waiting, .resumed] := by decide +kernel
  have ends : (last.step .poll).1.ends = true := by decide +kernel
  have goes : ∀ reply ∈ (run.play [.poll, .poll, .send "2", .poll, .close]).1,
      reply.ends = false := by
    decide +kernel
  have count : (run.answersTo [.poll, .poll, .send "2", .poll, .close] ++
      last.pollAnswers).length = 2 := by
    decide +kernel
  obtain ⟨-, -, -, -, -, -, runs⟩ := events_follow_reads 1 none [.read, .send "1", .read]
  obtain ⟨own, after, waiting, resumed⟩ := runs (.tokens [4, 4])
    [.poll, .poll, .send "2", .poll, .close] idle goes ends
  refine ⟨idle, emitted, ends, own, ?_, waiting.trans count, resumed.trans count⟩
  rw [← emitted]
  exact after

end Session

end AwaLang
