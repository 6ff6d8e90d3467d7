import AwaLang.Text.Escape

namespace AwaLang.Alphabet

def letters : List Char :=
  ['A', 'W', 'a', 'w', 'J', 'E', 'L', 'Y', 'H', 'O', 'S', 'I', 'U', 'M', 'j', 'e',
   'l', 'y', 'h', 'o', 's', 'i', 'u', 'm', 'P', 'C', 'N', 'T', 'p', 'c', 'n', 't',
   'B', 'D', 'F', 'G', 'R', 'b', 'd', 'f', 'g', 'r', '0', '1', '2', '3', '4', '5',
   '6', '7', '8', '9', ' ', '.', ',', '!', '\'', '(', ')', '~', '_', '/', ';', '\n']

inductive Fault
  | indexOutOfRange (index : Int)
  | unknownCharacter (c : Char)
  deriving DecidableEq, Repr

def Fault.message : Fault → String
  | .indexOutOfRange index => s!"alphabet index {index} out of range 0..{letters.length}"
  | .unknownCharacter c => s!"character {Text.quotedChar c} is not in the alphabet"

def letter (index : Int) : Except Fault Char :=
  match index with
  | .ofNat n => (letters[n]?).elim (.error (.indexOutOfRange index)) .ok
  | .negSucc _ => .error (.indexOutOfRange index)

def indexOf (c : Char) : Except Fault Int :=
  match letters.idxOf? c with
  | some n => .ok n
  | none => .error (.unknownCharacter c)

theorem letters_nodup : letters.Nodup := by decide

end AwaLang.Alphabet
