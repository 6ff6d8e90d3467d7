/-!
Notifications about reads, and what a listener sees of them: those since it began to listen or last
looked, of which the log keeps the latest sixteen.
-/

namespace AwaLang

inductive Event
  | waiting
  /-- The read has ended, with a line or at the end of the input. -/
  | resumed
  deriving DecidableEq, Repr

structure EventLog where
  /-- All events, the last one first. -/
  history : List Event
  /-- How many of them the listener has seen or passed over. -/
  seen : Nat
  deriving DecidableEq, Repr

namespace EventLog

def empty : EventLog := ⟨[], 0⟩

def emit (log : EventLog) (event : Event) : EventLog := ⟨event :: log.history, log.seen⟩

def emitted (log : EventLog) : List Event := log.history.reverse

@[simp] theorem emitted_emit (log : EventLog) (event : Event) :
    (log.emit event).emitted = log.emitted ++ [event] := by
  simp [emitted, emit]

def kept : Nat := 16

def unseen (log : EventLog) : Nat := log.history.length - log.seen

def lost (log : EventLog) : Nat := log.unseen - kept

def available (log : EventLog) : List Event := (log.history.take (min log.unseen kept)).reverse

def markSeen (log : EventLog) : EventLog := ⟨log.history, log.history.length⟩

end EventLog

end AwaLang
