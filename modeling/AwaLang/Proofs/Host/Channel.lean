import AwaLang.Host.Buffer
import AwaLang.Host.Channel
import AwaLang.Proofs.Machine.Images

/-!
Channels as runs see them. A read takes the line in front of the queue; if there is none, it finds
the end of the input or has to wait, as the sender has gone or not. So a channel is seen as a
buffer of the lines that are still to come.
-/

namespace AwaLang.Channel

variable {channel after : Channel} {line text : String} {rest : List String}

@[simp] theorem queue_beginRead (channel : Channel) : channel.beginRead.queue = channel.queue := by
  unfold beginRead
  split <;> rfl

@[simp] theorem senderHeld_beginRead (channel : Channel) :
    channel.beginRead.senderHeld = channel.senderHeld := by
  unfold beginRead
  split <;> rfl

@[simp] theorem room_beginRead (channel : Channel) : channel.beginRead.room = channel.room := by
  unfold beginRead
  split <;> rfl

@[simp] theorem writes_beginRead (channel : Channel) :
    channel.beginRead.writes = channel.writes := by
  unfold beginRead
  split <;> rfl

theorem read_cases (channel : Channel) :
    (∃ line rest, channel.queue = line :: rest ∧
      channel.read = (.line line, { channel.beginRead.endRead with queue := rest })) ∨
    (channel.queue = [] ∧ channel.senderHeld = true ∧
      channel.read = (.notYet, channel.beginRead)) ∨
    (channel.queue = [] ∧ channel.senderHeld = false ∧
      channel.read = (.endOfInput, channel.beginRead.endRead)) := by
  rw [read, queue_beginRead, senderHeld_beginRead]
  cases channel.queue with
  | cons line rest => exact .inl ⟨line, rest, rfl, rfl⟩
  | nil =>
    cases channel.senderHeld with
    | true => exact .inr (.inl ⟨rfl, rfl, rfl⟩)
    | false => exact .inr (.inr ⟨rfl, rfl, rfl⟩)

theorem of_read_notYet (late : Host.read channel = (.notYet, after)) :
    channel.queue = [] ∧ channel.senderHeld = true ∧ after = channel.beginRead := by
  change channel.read = (.notYet, after) at late
  rcases channel.read_cases with ⟨line, rest, -, answer⟩ | ⟨empty, held, answer⟩ | ⟨-, -, answer⟩
  · rw [answer] at late
    exact absurd (congrArg Prod.fst late) nofun
  · rw [answer] at late
    exact ⟨empty, held, (congrArg Prod.snd late).symm⟩
  · rw [answer] at late
    exact absurd (congrArg Prod.fst late) nofun

theorem read_frame (channel : Channel) :
    channel.read.2.senderHeld = channel.senderHeld ∧ channel.read.2.room = channel.room ∧
      channel.read.2.writes = channel.writes := by
  rcases channel.read_cases with ⟨line, rest, -, answer⟩ | ⟨-, -, answer⟩ | ⟨-, -, answer⟩
  all_goals
    rw [answer]
    exact ⟨channel.senderHeld_beginRead, channel.room_beginRead, channel.writes_beginRead⟩

theorem exists_of_write (written : Host.write channel text = .ok after) :
    ∃ room writes, after = { channel with room := room, writes := writes } := by
  change channel.write text = .ok after at written
  unfold write at written
  split at written
  · contradiction
  · exact ⟨_, _, (Except.ok.inj written).symm⟩
  · exact ⟨_, _, (Except.ok.inj written).symm⟩

theorem write_frame (written : Host.write channel text = .ok after) :
    after.senderHeld = channel.senderHeld ∧ after.queue = channel.queue ∧
      (channel.room = none → after.room = none) := by
  change channel.write text = .ok after at written
  unfold write at written
  split at written
  · contradiction
  · rename_i bounded
    rw [← Except.ok.inj written]
    refine ⟨rfl, rfl, ?_⟩
    intro unbounded
    rw [unbounded] at bounded
    contradiction
  · rename_i unbounded
    rw [← Except.ok.inj written]
    exact ⟨rfl, rfl, fun _ => unbounded⟩

theorem write_of_room (unbounded : channel.room = none) (text : String) :
    Host.write channel text = .ok { channel with writes := text :: channel.writes } := by
  change channel.write text = _
  rw [write, unbounded]

theorem keeps_room : Host.Keeps fun channel : Channel => channel.room = none where
  read channel unbounded := channel.read_frame.2.1.trans unbounded
  write _ _ _ unbounded written := (write_frame written).2.2 unbounded

theorem keeps_senderHeld (held : Bool) :
    Host.Keeps fun channel : Channel => channel.senderHeld = held where
  read channel same := channel.read_frame.1.trans same
  write _ _ _ same written := (write_frame written).1.trans same

def asBuffer (all more earlier : List String) (channel : Channel) : Buffer :=
  ⟨all, channel.queue ++ more, channel.writes ++ earlier⟩

structure Takes (more : List String) (channel : Channel) : Prop where
  room : channel.room = none
  more : channel.senderHeld = false → more = []

theorem takes_of_senderHeld (room : channel.room = none) (held : channel.senderHeld = true)
    (more : List String) : channel.Takes more where
  room := room
  more gone := by
    rw [held] at gone
    contradiction

theorem image_asBuffer (all more earlier : List String) :
    Host.Image (Takes more) (asBuffer all more earlier) where
  read channel takes := by
    refine ⟨keeps_room.read channel takes.room, ?_⟩
    intro gone
    exact takes.more (channel.read_frame.1.symm.trans gone)
  write channel text after takes written := by
    refine ⟨keeps_room.write channel text after takes.room written, ?_⟩
    intro gone
    exact takes.more ((write_frame written).1.symm.trans gone)
  waits channel after _ late := by
    obtain ⟨-, -, rfl⟩ := of_read_notYet late
    rw [asBuffer, asBuffer, queue_beginRead, writes_beginRead]
  answers channel takes answered := by
    change channel.read.1 ≠ .notYet at answered
    change (asBuffer all more earlier channel).read =
      (channel.read.1, asBuffer all more earlier channel.read.2)
    rcases channel.read_cases with ⟨line, rest, queued, answer⟩ | ⟨-, -, answer⟩ |
      ⟨empty, gone, answer⟩
    · rw [answer]
      simp [asBuffer, Buffer.read, queued, endRead]
    · rw [answer] at answered
      contradiction
    · rw [answer]
      simp [asBuffer, Buffer.read, empty, takes.more gone, endRead]
  writes channel text takes := by
    rw [write_of_room takes.room]
    rfl

theorem counts_queue :
    Host.Counts (fun channel : Channel => channel.senderHeld = true)
      (fun channel => channel.queue.length) where
  toKeeps := keeps_senderHeld true
  waits channel after _ late := by
    obtain ⟨-, -, rfl⟩ := of_read_notYet late
    rw [queue_beginRead]
  answers channel held answered := by
    change channel.read.1 ≠ .notYet at answered
    change channel.read.2.queue.length + 1 = channel.queue.length
    rcases channel.read_cases with ⟨line, rest, queued, answer⟩ | ⟨-, -, answer⟩ | ⟨-, gone, -⟩
    · rw [answer, queued]
      rfl
    · rw [answer] at answered
      contradiction
    · rw [held] at gone
      contradiction
  writes _ _ _ _ written := congrArg List.length (write_frame written).2.1

theorem of_advance_waiting {job later : Job}
    (waits : (Interpreter.advance job channel).1 = .waiting later) :
    channel.senderHeld = true ∧ (Interpreter.advance job channel).2.host.queue = [] ∧
      job.reads channel = channel.queue.length + 1 := by
  obtain ⟨-, before, late⟩ := Interpreter.read_of_advance waits
  obtain ⟨none, still, last⟩ := of_read_notYet late
  have empty : (Interpreter.advance job channel).2.host.queue = [] := by
    rw [last, queue_beginRead, none]
  have held : channel.senderHeld = true := by
    cases there : channel.senderHeld with
    | true => rfl
    | false =>
      have gone := (keeps_senderHeld false).advance there job
      rw [last, senderHeld_beginRead, still] at gone
      contradiction
  have count := counts_queue.advance held job
  rw [waits, empty] at count
  exact ⟨held, empty, count⟩

end AwaLang.Channel
