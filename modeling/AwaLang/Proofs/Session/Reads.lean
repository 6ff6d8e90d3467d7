import AwaLang.Proofs.Host.Service
import AwaLang.Proofs.Session.Steps

namespace AwaLang

namespace Session

namespace Reply

def waits : Reply → Bool
  | noLineYet => true
  | polled report _ _ => report.waits
  | _ => false

def ends : Reply → Bool
  | polled report _ _ => !report.waits
  | _ => false

def answers : Reply → List Reading
  | line (some text) => [.line text]
  | line none => [.endOfInput]
  | broken message => [.broken message]
  | _ => []

theorem of_refused {reply : Reply} (among : reply ∈ [noSender, inputDropped, full]) :
    reply.answers = [] ∧ reply.waits = false := by
  simp only [List.mem_cons, List.not_mem_nil, or_false] at among
  rcases among with rfl | rfl | rfl <;> exact ⟨rfl, rfl⟩

end Reply

def Command.polls : Command → Bool
  | poll => true
  | send _ | close | subscribe | events | read | reset | start _ | abandon => false

def pollAnswers (session : Session) : List Reading :=
  match session.phase with
  | .idle | .gone => []
  | .ready submission => session.interpreter.answers submission
  | .suspended job => job.answers session.channel

def answers (session : Session) : Command → List Reading
  | .poll => session.pollAnswers
  | command => (session.step command).1.answers

def answersTo (session : Session) : List Command → List Reading
  | [] => []
  | command :: rest => session.answers command ++ answersTo (session.step command).2 rest

variable {session : Session}

theorem answers_of_not_polls (session : Session) (command : Command)
    (other : command.polls = false) :
    session.answers command = (session.step command).1.answers := by
  cases command with
  | poll => contradiction
  | send | close | subscribe | events | read | reset | start | abandon => rfl

theorem serves_readOnce (session : Session) :
    Host.Serves session.channel session.readOnce.1.answers session.readOnce.1.waits
      session.channel.read.2 := by
  rw [readOnce]
  rcases reading : session.channel.read with ⟨answer, channel⟩
  cases answer with
  | line | endOfInput | broken => exact .single reading (by simp)
  | notYet => exact .waits reading

theorem serves_poll (session : Session) :
    ∃ served writes,
      Host.Serves session.channel (session.answers .poll) (session.step .poll).1.waits served ∧
      (session.step .poll).2.channel = { served with writes := writes } := by
  rw [answers, pollAnswers, step, poll]
  cases session.phase with
  | idle | gone => exact ⟨session.channel, session.channel.writes, .done session.channel, rfl⟩
  | ready submission => exact ⟨_, [], Interpreter.serves_run session.interpreter submission, rfl⟩
  | suspended job => exact ⟨_, [], Interpreter.serves_advance job session.channel, rfl⟩

end Session

structure Channel.Keeps (P : Channel → Prop) : Prop extends Host.Keeps P where
  dropRead : ∀ channel, P channel → P channel.dropRead
  withWrites : ∀ channel writes, P channel → P { channel with writes := writes }
  enqueue : ∀ channel line, P channel → P (channel.enqueue line)
  releaseSender : ∀ channel, P channel → P channel.releaseSender
  clearQueue : ∀ channel, P channel → P channel.clearQueue
  markSeen : ∀ channel, P channel → P channel.markSeen

theorem Channel.Keeps.step {P : Channel → Prop} (keeps : Channel.Keeps P) {session : Session}
    (held : P session.channel) (command : Session.Command) :
    P (session.step command).2.channel := by
  cases command with
  | close => exact keeps.releaseSender session.channel held
  | events => exact keeps.markSeen session.channel held
  | abandon => exact held
  | send line =>
    rw [Session.step]
    rcases session.send_cases line with ⟨-, -, -, sent⟩ | ⟨reply, -, same⟩
    · rw [sent]
      exact keeps.enqueue session.channel line held
    · rw [same]
      exact held
  | subscribe =>
    rw [Session.step, Session.subscribe]
    split
    · exact keeps.markSeen session.channel held
    · exact held
  | read =>
    rw [Session.step]
    split
    · rw [Session.session_readOnce]
      exact keeps.dropRead session.channel.read.2 (keeps.read session.channel held)
    · exact held
  | reset =>
    rw [Session.step]
    split
    · exact keeps.clearQueue session.channel held
    · exact held
  | start submission =>
    rw [Session.step, Session.start.eq_def]
    split
    · exact held
    · split <;> exact held
  | poll =>
    obtain ⟨served, writes, serves, after⟩ := session.serves_poll
    rw [after]
    exact keeps.withWrites served writes (keeps.of_serves serves held)

theorem Channel.Keeps.play {P : Channel → Prop} (keeps : Channel.Keeps P) {session : Session}
    (held : P session.channel) (commands : List Session.Command) :
    P (session.play commands).2.channel := by
  induction commands generalizing session with
  | nil => exact held
  | cons command commands ih => exact ih (keeps.step held command)

end AwaLang
