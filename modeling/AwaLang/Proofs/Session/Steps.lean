import AwaLang.Proofs.Host.Channel
import AwaLang.Proofs.Interpreter.Normal
import AwaLang.Session

namespace AwaLang

open Interpreter

namespace Session

variable {session : Session}

/-- Between two commands the sink takes every text, all texts are answered, and the abyss is empty.
-/
structure Settled (session : Session) : Prop where
  room : session.channel.room = none
  silent : session.channel.writes = []
  empty : session.interpreter.abyss = .empty

theorem Settled.poll (settled : session.Settled) : session.poll.2.Settled := by
  unfold Session.poll
  split
  · exact settled
  · exact settled
  · rename_i submission ready
    exact ⟨Channel.keeps_room.run settled.room submission, rfl,
      abyss_run_of_empty settled.empty submission⟩
  · rename_i job suspended
    exact ⟨Channel.keeps_room.advance settled.room job, rfl, abyss_advance job session.channel⟩

theorem send_cases (session : Session) (line : String) :
    (session.channel.senderHeld = true ∧ session.phase ≠ .gone ∧ session.channel.isFull = false ∧
      session.send line = (.sent, session.withChannel (session.channel.enqueue line))) ∨
    ∃ reply ∈ [Reply.noSender, .inputDropped, .full], session.send line = (reply, session) := by
  cases held : session.channel.senderHeld with
  | false => exact .inr ⟨.noSender, by simp, by simp [send, held]⟩
  | true =>
    by_cases gone : session.phase = .gone
    · exact .inr ⟨.inputDropped, by simp, by simp [send, held, gone]⟩
    · cases full : session.channel.isFull with
      | true => exact .inr ⟨.full, by simp, by simp [send, held, gone, full]⟩
      | false => exact .inl ⟨rfl, gone, rfl, by simp [send, held, gone, full]⟩

theorem session_readOnce (session : Session) :
    session.readOnce.2 = session.withChannel session.channel.read.2.dropRead := by
  rw [readOnce]
  rcases session.channel.read with ⟨answer, channel⟩
  cases answer <;> rfl

theorem Settled.step (settled : session.Settled) (command : Command) :
    (session.step command).2.Settled := by
  cases command with
  | poll => exact settled.poll
  | close | events | abandon => exact ⟨settled.room, settled.silent, settled.empty⟩
  | send line =>
    rw [Session.step]
    rcases session.send_cases line with ⟨-, -, -, sent⟩ | ⟨reply, -, same⟩
    · rw [sent]
      exact ⟨settled.room, settled.silent, settled.empty⟩
    · rw [same]
      exact settled
  | subscribe =>
    rw [Session.step, subscribe]
    split <;> exact ⟨settled.room, settled.silent, settled.empty⟩
  | read =>
    rw [Session.step]
    split
    · obtain ⟨-, room, writes⟩ := session.channel.read_frame
      rw [session_readOnce]
      exact ⟨room.trans settled.room, writes.trans settled.silent, settled.empty⟩
    · exact settled
  | reset =>
    rw [Session.step]
    split <;> exact ⟨settled.room, settled.silent, settled.empty⟩
  | start submission =>
    rw [Session.step, Session.start.eq_def]
    split
    · exact settled
    · split <;> exact ⟨settled.room, settled.silent, settled.empty⟩

theorem Settled.play (settled : session.Settled) (commands : List Command) :
    (session.play commands).2.Settled := by
  induction commands generalizing session with
  | nil => exact settled
  | cons command commands ih => exact ih (settled.step command)

end Session

end AwaLang
