import AwaLang.Host

namespace AwaLang

structure Buffer where
  lines : List String
  unread : List String
  /-- The texts written, the last one first. -/
  writes : List String
  deriving DecidableEq, Repr

namespace Buffer

def ofLines (lines : List String) : Buffer := ⟨lines, lines, []⟩

def read (buffer : Buffer) : Reading × Buffer :=
  match buffer.unread with
  | [] => (.endOfInput, buffer)
  | line :: rest => (.line line, { buffer with unread := rest })

def write (buffer : Buffer) (text : String) : Buffer :=
  { buffer with writes := text :: buffer.writes }

instance : Host Buffer where
  read := read
  write buffer text := .ok (buffer.write text)

def rewind (buffer : Buffer) : Buffer := { buffer with unread := buffer.lines }

def output (buffer : Buffer) : String := String.join buffer.writes.reverse

def forgetWrites (buffer : Buffer) : Buffer := { buffer with writes := [] }

end Buffer

end AwaLang
