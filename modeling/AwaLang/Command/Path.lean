import AwaLang.Text.Blank

/-!
File paths: their components, and the suffix of the last one. A path ends in a name even if slashes
or single dots follow it; a name that only begins with a dot has no suffix.
-/

namespace AwaLang.Command.Path

def components (path : List Char) : List (List Char) :=
  (Text.pieces (· == '/') path).filter fun piece => !piece.isEmpty && piece != ['.']

def name? (path : List Char) : Option (List Char) :=
  (components path).getLast?.filter (· != ['.', '.'])

/-- What follows the last dot of a name, unless nothing is before the dot. -/
def suffixOfName? (name : List Char) : Option (List Char) :=
  match name.reverse.dropWhile (· != '.') with
  | _ :: _ :: _ => some (name.reverse.takeWhile (· != '.')).reverse
  | _ => none

def suffix? (path : List Char) : Option (List Char) := (name? path).bind suffixOfName?

def isProgram (path : String) : Bool := suffix? path.toList == some ['a', 'w', 'a']

end AwaLang.Command.Path
