namespace AwaLang.Command

inductive Level
  | trace
  | debug
  | info
  | warn
  | error
  | off
  deriving DecidableEq, Repr

namespace Level

def name : Level → List Char
  | trace => ['t', 'r', 'a', 'c', 'e']
  | debug => ['d', 'e', 'b', 'u', 'g']
  | info => ['i', 'n', 'f', 'o']
  | warn => ['w', 'a', 'r', 'n']
  | error => ['e', 'r', 'r', 'o', 'r']
  | off => ['o', 'f', 'f']

def rank : Level → Nat
  | trace => 0
  | debug => 1
  | info => 2
  | warn => 3
  | error => 4
  | off => 5

def shows (level line : Level) : Bool := level.rank ≤ line.rank && line != off

def ofName? (text : String) : Option Level :=
  [trace, debug, info, warn, error, off].find? (·.name == text.toList)

end Level

structure LogLine where
  level : Level
  message : String
  fields : List (String × String)

namespace LogLine

def text (line : LogLine) : String :=
  let level := (line.level.name.map Char.toUpper).leftpad 5 ' '
  let fields := line.fields.map fun (key, value) => s!" {key}={value}"
  s!"{String.ofList level} {line.message}{String.join fields}\n"

def render (level : Level) (lines : List LogLine) : String :=
  String.join ((lines.filter fun line => level.shows line.level).map text)

end LogLine

end AwaLang.Command
