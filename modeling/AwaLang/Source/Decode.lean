import AwaLang.Role
import AwaLang.Source.Clean
import AwaLang.Source.Syllable
import AwaLang.Text.Escape

/-!
Source text read as tokens. The program begins after the first `awa` of the cleaned text; each token
is a number of five or eight syllables, by its role, most significant bit first. Of several faults
the first in the text is reported; a token that the text does not complete is dropped.
-/

namespace AwaLang.Source

def startMarker : List Char := ['a', 'w', 'a']

inductive Fault
  | missingStart
  | misplacedSign (position : Nat)
  | unexpected (position : Nat) (found : List Char)
  deriving DecidableEq, Repr

def Fault.message : Fault → String
  | .missingStart => "missing start marker 'awa'"
  | .misplacedSign position =>
    s!"sign marker at position {position} is not the first bit of a token"
  | .unexpected position found => s!"unexpected input {Text.quoted found} at position {position}"

structure Decoded where
  tokens : List Token
  /-- The syllables left over of a token that was not completed. -/
  leftover : Nat
  deriving DecidableEq, Repr

def Decoded.cons (token : Token) (decoded : Decoded) : Decoded :=
  ⟨token :: decoded.tokens, decoded.leftover⟩

def afterMarker (position : Nat) : List Char → Option (Nat × List Char)
  | [] => none
  | c :: rest =>
    if startMarker.isPrefixOf (c :: rest) then some (position + 3, rest.drop 2)
    else afterMarker (position + 1) rest

/-- Gathers syllables into tokens, from a token in `role` of which `bits` syllables make `value`. -/
def gather (role : Role) (bits : Nat) (value : Int) (position : Nat) :
    List Syllable → Except Fault Decoded
  | [] => .ok ⟨[], bits⟩
  | s :: rest =>
    if s = .sign && bits != 0 then .error (.misplacedSign position)
    else
      let value := s.extend value
      let position := position + s.text.length
      if bits + 1 < role.width then gather role (bits + 1) value position rest
      else (gather (role.next value) 0 0 position rest).map (.cons value)

def decodeBody (position : Nat) (body : List Char) : Except Fault Decoded := do
  let reading := Syllable.read body
  let decoded ← gather .opcode 0 0 position reading.syllables
  if reading.rest.length < 4 then return decoded
  .error (.unexpected (position + (Syllable.spell reading.syllables).length) (reading.rest.take 4))

def decodeCleaned (text : List Char) : Except Fault Decoded :=
  match afterMarker 0 text with
  | none => .error .missingStart
  | some (position, body) => decodeBody position body

def decodeAll (source : String) : Except Fault Decoded := decodeCleaned (clean source.toList)

def decode (source : String) : Except Fault (List Token) := (decodeAll source).map Decoded.tokens

end AwaLang.Source
