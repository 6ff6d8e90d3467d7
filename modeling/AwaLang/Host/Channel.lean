import AwaLang.Host
import AwaLang.Host.EventLog

/-!
A host that is fed while the program runs. Lines wait in a queue of bounded length; a read that
finds it empty is begun, and ends when a line has come or the sender has gone. Texts are taken one
by one, as many as the sink has room for.
-/

namespace AwaLang

structure Channel where
  capacity : Nat
  queue : List String
  senderHeld : Bool
  /-- Whether a read has begun and not ended. -/
  reading : Bool
  events : EventLog
  /-- How many more texts the sink takes; any number if none is said. -/
  room : Option Nat
  /-- The texts taken, the last one first. -/
  writes : List String
  deriving DecidableEq, Repr

namespace Channel

def new (capacity : Nat) (room : Option Nat) : Channel :=
  ⟨capacity, [], true, false, .empty, room, []⟩

def beginRead (channel : Channel) : Channel :=
  if channel.reading then channel
  else { channel with reading := true, events := channel.events.emit .waiting }

def endRead (channel : Channel) : Channel :=
  { channel with reading := false, events := channel.events.emit .resumed }

def read (channel : Channel) : Reading × Channel :=
  let channel := channel.beginRead
  match channel.queue with
  | line :: rest => (.line line, { channel.endRead with queue := rest })
  | [] => if channel.senderHeld then (.notYet, channel) else (.endOfInput, channel.endRead)

def dropRead (channel : Channel) : Channel := { channel with reading := false }

def write (channel : Channel) (text : String) : Except String Channel :=
  match channel.room with
  | some 0 => .error "sink closed"
  | some (room + 1) => .ok { channel with room := some room, writes := text :: channel.writes }
  | none => .ok { channel with writes := text :: channel.writes }

instance : Host Channel where
  read := read
  write := write

def isFull (channel : Channel) : Bool := channel.capacity ≤ channel.queue.length

def enqueue (channel : Channel) (line : String) : Channel :=
  { channel with queue := channel.queue ++ [line] }

def releaseSender (channel : Channel) : Channel := { channel with senderHeld := false }

def clearQueue (channel : Channel) : Channel := { channel with queue := [] }

def taken (channel : Channel) : List String := channel.writes.reverse

def forgetWrites (channel : Channel) : Channel := { channel with writes := [] }

def markSeen (channel : Channel) : Channel := { channel with events := channel.events.markSeen }

end Channel

end AwaLang
