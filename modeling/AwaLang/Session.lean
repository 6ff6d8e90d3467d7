import AwaLang.Host.Channel
import AwaLang.Interpreter

/-!
Interactive sessions: someone feeds lines to an interpreter, listens to its events, and moves its
runs on. A run that lacks a line stays as it is until it is polled again.
-/

namespace AwaLang

inductive Phase
  | idle
  /-- A run that nothing has been done of yet. -/
  | ready (submission : Submission)
  | suspended (job : Job)
  | gone
  deriving DecidableEq, Repr

structure Session where
  interpreter : Interpreter Channel
  phase : Phase

namespace Session

inductive Command
  | send (line : String)
  | close
  | subscribe
  | events
  | read
  | reset
  | start (submission : Except Assembly.Fault Submission)
  | poll
  | abandon

inductive Reply
  | sent
  | full
  | noSender
  | inputDropped
  | closed
  | subscribed
  /-- The events that are still kept, after so many were lost; `ended` when no more can come. -/
  | events (lost : Nat) (kept : List Event) (ended : Bool)
  | line (line : Option String)
  | noLineYet
  | broken (message : String)
  | reset
  | started
  | refused (fault : Assembly.Fault)
  | notIdle
  | notRunning
  | polled (report : Report) (writes : List String) (steps : Nat)
  | abandoned
  deriving DecidableEq, Repr

def inputDroppedMessage : String := "input source dropped"

def new (capacity : Nat) (room : Option Nat) : Session := ⟨.new (.new capacity room), .idle⟩

def channel (session : Session) : Channel := session.interpreter.host

def withChannel (session : Session) (channel : Channel) : Session :=
  { session with interpreter := { session.interpreter with host := channel } }

def send (session : Session) (line : String) : Reply × Session :=
  let channel := session.channel
  if !channel.senderHeld then (.noSender, session)
  else if session.phase = .gone then (.inputDropped, session)
  else if channel.isFull then (.full, session)
  else (.sent, session.withChannel (channel.enqueue line))

def subscribe (session : Session) : Reply × Session :=
  if session.channel.senderHeld then (.subscribed, session.withChannel session.channel.markSeen)
  else (.noSender, session)

def events (session : Session) : Reply × Session :=
  let channel := session.channel
  let ended := !channel.senderHeld && session.phase = .gone
  (.events channel.events.lost channel.events.available ended,
    session.withChannel channel.markSeen)

def readOnce (session : Session) : Reply × Session :=
  let (reading, channel) := session.channel.read
  let session := session.withChannel channel.dropRead
  match reading with
  | .line text => (.line (some text), session)
  | .endOfInput => (.line none, session)
  | .notYet => (.noLineYet, session)
  | .broken message => (.broken message, session)

def phaseAfter : Report → Phase
  | .waiting job => .suspended job
  | .finished _ => .idle
  | .failed _ => .idle

/-- Answers with the texts of this poll, and forgets them. -/
def settle (outcome : Report × Interpreter Channel) : Reply × Session :=
  let (report, interpreter) := outcome
  (.polled report interpreter.host.taken interpreter.steps,
    ⟨{ interpreter with host := interpreter.host.forgetWrites }, phaseAfter report⟩)

def poll (session : Session) : Reply × Session :=
  match session.phase with
  | .idle | .gone => (.notRunning, session)
  | .ready submission => settle (session.interpreter.run submission)
  | .suspended job => settle (Interpreter.advance job session.channel)

/-- An assembly fault is reported in every phase. -/
def start (session : Session) (submission : Except Assembly.Fault Submission) : Reply × Session :=
  match submission with
  | .error fault => (.refused fault, session)
  | .ok submission =>
    if session.phase = .idle then (.started, { session with phase := .ready submission })
    else (.notIdle, session)

def step (session : Session) : Command → Reply × Session
  | .send line => session.send line
  | .close => (.closed, session.withChannel session.channel.releaseSender)
  | .subscribe => session.subscribe
  | .events => session.events
  | .read => if session.phase = .idle then session.readOnce else (.notIdle, session)
  | .reset =>
    if session.phase = .idle then (.reset, session.withChannel session.channel.clearQueue)
    else (.notIdle, session)
  | .start submission => session.start submission
  | .poll => session.poll
  | .abandon => (.abandoned, { session with phase := .gone })

def play (session : Session) : List Command → List Reply × Session
  | [] => ([], session)
  | command :: rest =>
    let (reply, session) := session.step command
    let (replies, session) := play session rest
    (reply :: replies, session)

end Session

end AwaLang
