import AwaLang.Role
import AwaLang.Source.Decode

/-!
Tokens written as source text. Each token must fit the width of its role. Since the last three
characters of a text are never read, a text with tokens ends in one more zero syllable, which
completes no token.
-/

namespace AwaLang.Source

structure Misfit where
  index : Nat
  value : Token
  width : Nat
  deriving DecidableEq, Repr

def Misfit.message (m : Misfit) : String :=
  s!"token {m.index}: {m.value} does not fit in {m.width} bits"

def bits : Nat → Int → List Syllable
  | 0, _ => []
  | width + 1, value => bits width (value / 2) ++ [if value % 2 = 1 then .one else .zero]

def spelling (width : Nat) (value : Int) : List Syllable :=
  if value < 0 then .sign :: bits (width - 1) value else bits width value

def spellings (index : Nat) : List (Role × Token) → Except Misfit (List Syllable)
  | [] => .ok []
  | (role, token) :: rest =>
    if role.fits token then
      (spellings (index + 1) rest).map (spelling role.width token ++ ·)
    else .error ⟨index, token, role.width⟩

def encode (tokens : List Token) : Except Misfit String := do
  let syllables ← spellings 0 (Role.assign .opcode tokens)
  let padding := if tokens.isEmpty then [] else Syllable.zero.text
  return String.ofList (startMarker ++ Syllable.spell syllables ++ padding)

end AwaLang.Source
