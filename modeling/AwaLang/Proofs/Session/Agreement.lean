import AwaLang.Proofs.Host.Channel
import AwaLang.Proofs.Interpreter.Isolation
import AwaLang.Proofs.Session.Steps

/-!
Interactive runs and batch runs. However a run is fed, suspended and taken up again, it comes to
what the same stream comes to on a buffer that has all its lines beforehand.
-/

namespace AwaLang

open Interpreter

/-- A run that began as `start` has come to `job`. Whatever more lines there will be, what is left
of it on the lines that are left is what it would be on all lines from the start, and it has read
the lines that are no longer there. -/
structure Underway (start : Job) (lines texts : List String) (job : Job) (channel : Channel) :
    Prop where
  agrees : ∀ more, channel.Takes more →
    advance start (Buffer.ofLines (lines ++ more)) =
      advance job (channel.asBuffer (lines ++ more) more texts.reverse)
  reads : ∀ more, channel.Takes more →
    start.reads (Buffer.ofLines (lines ++ more)) + channel.queue.length =
      lines.length + job.reads (channel.asBuffer (lines ++ more) more texts.reverse)

namespace Underway

variable {start job later : Job} {lines texts : List String} {channel after : Channel}

theorem refl (start : Job) (silent : channel.writes = []) :
    Underway start channel.queue [] start channel := by
  have same (more : List String) :
      channel.asBuffer (channel.queue ++ more) more [] =
        Buffer.ofLines (channel.queue ++ more) := by
    rw [Channel.asBuffer, silent]
    rfl
  constructor
  · intro more _
    rw [List.reverse_nil, same]
  · intro more _
    rw [List.reverse_nil, same]
    exact Nat.add_comm _ _

theorem of_queue_eq (underway : Underway start lines texts job channel)
    (queue : after.queue = channel.queue) (writes : after.writes = channel.writes)
    (takes : ∀ more, after.Takes more → channel.Takes more) :
    Underway start lines texts job after := by
  constructor
  · intro more later
    rw [Channel.asBuffer, queue, writes]
    exact underway.agrees more (takes more later)
  · intro more later
    rw [Channel.asBuffer, queue, writes]
    exact underway.reads more (takes more later)

theorem enqueue (underway : Underway start lines texts job channel)
    (held : channel.senderHeld = true) (line : String) :
    Underway start (lines ++ [line]) texts job (channel.enqueue line) := by
  -- The line is the first of those that were still to come.
  have takes {more : List String} (later : (channel.enqueue line).Takes more) :
      channel.Takes (line :: more) := by
    have room : channel.room = none := later.room
    exact Channel.takes_of_senderHeld room held _
  have same (more : List String) :
      (channel.enqueue line).asBuffer (lines ++ [line] ++ more) more texts.reverse =
        channel.asBuffer (lines ++ line :: more) (line :: more) texts.reverse := by
    simp [Channel.asBuffer, Channel.enqueue]
  constructor
  · intro more later
    have whole := underway.agrees (line :: more) (takes later)
    rwa [same, List.append_assoc, List.singleton_append]
  · intro more later
    have whole := underway.reads (line :: more) (takes later)
    have longer : (channel.enqueue line).queue.length = channel.queue.length + 1 :=
      List.length_append
    rw [same, longer, List.length_append, List.length_singleton, List.append_assoc,
      List.singleton_append]
    omega

/-- A run that ends, ends as it does on the lines that there are; unless the sender has gone, it has
not read past them. -/
theorem of_goes (underway : Underway start lines texts job channel) (room : channel.room = none)
    (goes : (advance job channel).1.waits = false) :
    advance start (Buffer.ofLines lines) =
        ((advance job channel).1,
          (advance job channel).2.map (Channel.asBuffer lines [] texts.reverse)) ∧
      (channel.senderHeld = true → start.reads (Buffer.ofLines lines) ≤ lines.length) := by
  have takes : channel.Takes [] := ⟨room, fun _ => rfl⟩
  have agrees := underway.agrees [] takes
  have reads := underway.reads [] takes
  rw [List.append_nil] at agrees reads
  obtain ⟨same, count⟩ :=
    (Channel.image_asBuffer lines [] texts.reverse).advance_of_goes takes goes
  refine ⟨agrees.trans same, ?_⟩
  intro held
  have taken := Channel.counts_queue.advance held job
  rw [goes, Bool.toNat_false] at taken
  omega

theorem of_waiting (underway : Underway start lines texts job channel) (room : channel.room = none)
    (waits : (advance job channel).1 = .waiting later) :
    channel.senderHeld = true ∧ lines.length < start.reads (Buffer.ofLines lines) ∧
      Underway start lines (texts ++ (advance job channel).2.host.taken) later
        (advance job channel).2.host.forgetWrites := by
  obtain ⟨held, empty, count⟩ := Channel.of_advance_waiting waits
  have takes := Channel.takes_of_senderHeld room held
  have same (more : List String) :
      (advance job channel).2.host.forgetWrites.asBuffer (lines ++ more) more
          (texts ++ (advance job channel).2.host.taken).reverse =
        (advance job channel).2.host.asBuffer (lines ++ more) more texts.reverse := by
    simp [Channel.asBuffer, Channel.forgetWrites, Channel.taken]
  have onwards (more : List String) :=
    (Channel.image_asBuffer (lines ++ more) more texts.reverse).advance_of_waiting (takes more)
      waits
  have reads (more : List String) : start.reads (Buffer.ofLines (lines ++ more)) =
      lines.length +
        later.reads ((advance job channel).2.host.asBuffer (lines ++ more) more texts.reverse) := by
    have before := underway.reads more (takes more)
    have after := (onwards more).2
    omega
  refine ⟨held, ?_, ?_⟩
  · -- The read that waits is still ahead, also if no more lines come.
    have total := reads []
    have ahead : 0 < later.reads
        ((advance job channel).2.host.asBuffer (lines ++ []) [] texts.reverse) :=
      Program.reads_pos (read_of_advance waits).1 later.spare _
    rw [List.append_nil] at total ahead
    omega
  · constructor
    · intro more _
      rw [same]
      exact (underway.agrees more (takes more)).trans (onwards more).1
    · intro more _
      rw [same, reads]
      have left : (advance job channel).2.host.forgetWrites.queue = [] := empty
      rw [left]
      rfl

end Underway

inductive Submission.Denotes : Submission → List Token → Prop
  | tokens (tokens : List Token) : Denotes (.tokens tokens) tokens
  | source {text : String} {tokens : List Token} (decoded : Source.decode text = .ok tokens) :
      Denotes (.source text) tokens

theorem Submission.Denotes.run {σ : Type} [Host σ] {submission : Submission}
    {tokens : List Token} (denotes : submission.Denotes tokens) (i : Interpreter σ) :
    i.run submission = i.runTokens tokens := by
  cases denotes with
  | tokens => rfl
  | source decoded => rw [Interpreter.run, runSource, decoded]

namespace Session

def Command.Feeds : Command → Prop
  | send _ | close | subscribe | events | poll => True
  | read | reset | start _ | abandon => False

def Command.accepted : Command → Reply → List String
  | send line, .sent => [line]
  | _, _ => []

def acceptedLines (commands : List Command) (replies : List Reply) : List String :=
  (List.zipWith Command.accepted commands replies).flatten

def Reply.texts : Reply → List String
  | polled _ texts _ => texts
  | _ => []

variable {session : Session} {tokens : List Token} {lines texts : List String}

/-- What a poll answers agrees with a run of the stream on a buffer. It waits if that run reads past
the lines that were accepted, and more can come; if it ends, it ends as that run does. -/
structure Agrees (tokens : List Token) (lines texts : List String) (held : Bool) (report : Report)
    (steps : Nat) : Prop where
  waits_iff : report.waits = true ↔
    held = true ∧ lines.length < (Interpreter.new (Buffer.ofLines lines)).reads tokens
  ends : report.waits = false →
    let batch := (Interpreter.new (Buffer.ofLines lines)).runTokens tokens
    report = batch.1 ∧ texts = batch.2.host.writes.reverse ∧ steps = batch.2.steps

inductive Follows (tokens : List Token) : List String → List String → Session → Prop
  | ready {session : Session} {lines : List String} {submission : Submission}
      (phase : session.phase = .ready submission) (denotes : submission.Denotes tokens)
      (queue : session.channel.queue = lines) : Follows tokens lines [] session
  | suspended {session : Session} {lines texts : List String} {start job : Job}
      (phase : session.phase = .suspended job)
      (begun : (Interpreter.new session.channel).prepare tokens = .ok start)
      (underway : Underway start lines texts job session.channel) :
      Follows tokens lines texts session
  | ended {session : Session} {lines texts : List String} (phase : session.phase = .idle) :
      Follows tokens lines texts session

theorem phaseAfter_of_goes {report : Report} (goes : report.waits = false) :
    phaseAfter report = .idle := by
  cases report with
  | waiting => contradiction
  | finished | failed => rfl

theorem Follows.of_advance {start job : Job} {channel : Channel} (room : channel.room = none)
    (begun : (Interpreter.new channel).prepare tokens = .ok start)
    (underway : Underway start lines texts job channel) :
    Agrees tokens lines (texts ++ (advance job channel).2.host.taken) channel.senderHeld
        (advance job channel).1 (advance job channel).2.steps ∧
      Follows tokens lines (texts ++ (advance job channel).2.host.taken)
        (settle (advance job channel)).2 := by
  have prepared : (Interpreter.new (Buffer.ofLines lines)).prepare tokens = .ok start := begun
  have batch : (Interpreter.new (Buffer.ofLines lines)).runTokens tokens =
      advance start (Buffer.ofLines lines) := by
    rw [runTokens, prepared]
    rfl
  have reads : (Interpreter.new (Buffer.ofLines lines)).reads tokens =
      start.reads (Buffer.ofLines lines) := by
    rw [Interpreter.reads, prepared]
    rfl
  -- A run that waits has read past the lines that were accepted, one that ends has not.
  cases goes : (advance job channel).1.waits with
  | true =>
    obtain ⟨later, waits⟩ := Report.exists_of_waits goes
    obtain ⟨held, past, further⟩ := underway.of_waiting room waits
    constructor
    · constructor
      · rw [reads, held]
        exact ⟨fun _ => ⟨rfl, past⟩, fun _ => goes⟩
      · intro ends
        rw [goes] at ends
        contradiction
    · have phase : (settle (advance job channel)).2.phase = .suspended later := by
        rw [settle, waits]
        rfl
      exact .suspended phase begun further
  | false =>
    obtain ⟨same, within⟩ := underway.of_goes room goes
    constructor
    · constructor
      · rw [reads, goes]
        constructor
        · intro waits
          contradiction
        · intro late
          exact absurd late.2 (Nat.not_lt.2 (within late.1))
      · intro _
        rw [batch, same]
        exact ⟨rfl, by simp [Interpreter.map, Channel.asBuffer, Channel.taken], rfl⟩
    · exact .ended (phaseAfter_of_goes goes)

theorem Follows.poll (follows : Follows tokens lines texts session) (settled : session.Settled) :
    (session.poll = (.notRunning, session)) ∨ ∃ report taken steps,
      session.poll.1 = .polled report taken steps ∧
      Agrees tokens lines (texts ++ taken) session.channel.senderHeld report steps ∧
      Follows tokens lines (texts ++ taken) session.poll.2 := by
  cases follows with
  | ended phase => exact .inl (by rw [Session.poll, phase])
  | @suspended _ _ _ start job phase begun underway =>
    obtain ⟨agrees, further⟩ := of_advance settled.room begun underway
    rw [Session.poll, phase]
    exact .inr ⟨_, _, _, rfl, agrees, further⟩
  | ready phase denotes unread =>
    subst unread
    rw [Session.poll, phase]
    dsimp only
    rw [denotes.run, runTokens]
    cases prepared : session.interpreter.prepare tokens with
    | ok start =>
      have begun : (Interpreter.new session.channel).prepare tokens = .ok start :=
        (prepare_congr settled.empty tokens).symm.trans prepared
      obtain ⟨agrees, further⟩ := of_advance settled.room begun (.refl start settled.silent)
      exact .inr ⟨_, _, _, rfl, agrees, further⟩
    | error failure =>
      have refused : (Interpreter.new (Buffer.ofLines session.channel.queue)).prepare tokens =
          .error failure :=
        (prepare_congr settled.empty tokens).symm.trans prepared
      refine .inr ⟨.failed failure, [], 0, ?_, ?_, .ended rfl⟩
      · have silent : session.channel.taken = [] := by rw [Channel.taken, settled.silent]; rfl
        rw [settle]
        exact congrArg (Reply.polled (.failed failure) · 0) silent
      · constructor
        · rw [Interpreter.reads, refused]
          simp [Report.waits]
        · intro _
          rw [runTokens, refused]
          exact ⟨rfl, rfl, rfl⟩

theorem Follows.withChannel (follows : Follows tokens lines texts session) {after : Channel}
    (queue : after.queue = session.channel.queue) (writes : after.writes = session.channel.writes)
    (takes : ∀ more, after.Takes more → session.channel.Takes more) :
    Follows tokens lines texts (session.withChannel after) := by
  cases follows with
  | ready phase denotes unread => exact .ready phase denotes (queue.trans unread)
  | suspended phase begun underway =>
    exact .suspended phase begun (underway.of_queue_eq queue writes takes)
  | ended phase => exact .ended phase

theorem Follows.enqueue (follows : Follows tokens lines texts session)
    (held : session.channel.senderHeld = true) (line : String) :
    Follows tokens (lines ++ [line]) texts
      (session.withChannel (session.channel.enqueue line)) := by
  cases follows with
  | ready phase denotes unread => exact .ready phase denotes (congrArg (· ++ [line]) unread)
  | suspended phase begun underway => exact .suspended phase begun (underway.enqueue held line)
  | ended phase => exact .ended phase

theorem Follows.step (follows : Follows tokens lines texts session) (settled : session.Settled)
    {command : Command} (feeds : command.Feeds) :
    Follows tokens (lines ++ command.accepted (session.step command).1)
      (texts ++ (session.step command).1.texts) (session.step command).2 := by
  have quiet : Follows tokens (lines ++ []) (texts ++ []) session := by
    rwa [List.append_nil, List.append_nil]
  cases command with
  | read | reset | start | abandon => contradiction
  | poll =>
    rw [Session.step]
    rcases follows.poll settled with same | ⟨report, taken, steps, polled, -, further⟩
    · rw [same]
      exact quiet
    · rw [polled]
      rwa [← List.append_nil lines] at further
  | send line =>
    rw [Session.step]
    rcases session.send_cases line with ⟨held, -, -, sent⟩ | ⟨reply, among, same⟩
    · rw [sent]
      rw [← List.append_nil texts] at follows
      exact follows.enqueue held line
    · rw [same]
      simp only [List.mem_cons, List.not_mem_nil, or_false] at among
      rcases among with rfl | rfl | rfl <;> exact quiet
  | close =>
    exact quiet.withChannel rfl rfl fun more takes => ⟨takes.room, fun _ => takes.more rfl⟩
  | events =>
    exact quiet.withChannel rfl rfl fun more takes => ⟨takes.room, takes.more⟩
  | subscribe =>
    rw [Session.step, subscribe]
    split
    · exact quiet.withChannel rfl rfl fun more takes => ⟨takes.room, takes.more⟩
    · exact quiet

theorem Follows.play (follows : Follows tokens lines texts session) (settled : session.Settled)
    {commands : List Command} (feeds : ∀ command ∈ commands, command.Feeds) :
    Follows tokens (lines ++ acceptedLines commands (session.play commands).1)
      (texts ++ (session.play commands).1.flatMap Reply.texts) (session.play commands).2 := by
  induction commands generalizing session lines texts with
  | nil =>
    have quiet : Follows tokens (lines ++ []) (texts ++ []) session := by
      rwa [List.append_nil, List.append_nil]
    exact quiet
  | cons command commands ih =>
    rw [List.forall_mem_cons] at feeds
    have later := ih (follows.step settled feeds.1) (settled.step command) feeds.2
    rw [List.append_assoc, List.append_assoc] at later
    exact later

end Session

end AwaLang
