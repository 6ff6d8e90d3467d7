import AwaLang.Host
import AwaLang.Text.Utf8

/-!
A console: lines of bytes come in and text goes out. A line is the bytes up to a newline, which must
be UTF-8; the newline and a carriage return before it are not part of its text.
-/

namespace AwaLang

structure Console where
  arrived : List (Except String String)
  /-- Whether nothing more will arrive. -/
  closed : Bool
  writes : List String

namespace Console

def ofLines (lines : List String) : Console := ⟨lines.map .ok, true, []⟩

def dropLast (c : Char) (text : List Char) : List Char :=
  if text.getLast? = some c then text.dropLast else text

def lineOf (bytes : List UInt8) : Except String String :=
  match Text.Utf8.decode bytes with
  | .error fault => .error fault.message
  | .ok text =>
    let chars := text.toList
    if chars.getLast? = some '\n' then .ok (String.ofList (dropLast '\r' chars.dropLast))
    else .ok text

def cut (bytes : List UInt8) : List (List UInt8) :=
  bytes.foldr
    (fun byte lines =>
      match lines with
      | [] => [[byte]]
      | line :: rest => if byte = 10 then [byte] :: line :: rest else (byte :: line) :: rest)
    []

def ofBytes (bytes : List UInt8) : Console := ⟨(cut bytes).map lineOf, true, []⟩

def live : Console := ⟨[], false, []⟩

def feed (console : Console) (line : List UInt8) : Console :=
  { console with arrived := console.arrived ++ [lineOf line] }

def close (console : Console) : Console := { console with closed := true }

def read (console : Console) : Reading × Console :=
  match console.arrived with
  | .ok line :: rest => (.line line, { console with arrived := rest })
  | .error message :: rest => (.broken message, { console with arrived := rest })
  | [] => (if console.closed then .endOfInput else .notYet, console)

instance : Host Console where
  read := read
  write console text := .ok { console with writes := text :: console.writes }

def output (console : Console) : String := String.join console.writes.reverse

def forgetWrites (console : Console) : Console := { console with writes := [] }

end Console

end AwaLang
