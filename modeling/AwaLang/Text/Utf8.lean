/-!
UTF-8. Bytes are read strictly: shortest forms only, no surrogates, nothing past U+10FFFF. A fault
tells where the good text ends and how many bytes of the bad sequence could have begun one.
-/

namespace AwaLang.Text.Utf8

inductive Fault
  | invalid (index length : Nat)
  | incomplete (index : Nat)
  deriving DecidableEq, Repr

def Fault.message : Fault → String
  | .invalid index length => s!"invalid utf-8 sequence of {length} bytes from index {index}"
  | .incomplete index => s!"incomplete utf-8 byte sequence from index {index}"

/-- What a first byte announces: the payload it carries, how many bytes follow, and the bounds of
the next one. -/
structure Lead where
  payload : Nat
  following : Nat
  least : Nat
  greatest : Nat

def Lead.of? (byte : Nat) : Option Lead :=
  if 0xc2 ≤ byte && byte ≤ 0xdf then some ⟨byte - 0xc0, 1, 0x80, 0xbf⟩
  else if byte = 0xe0 then some ⟨0, 2, 0xa0, 0xbf⟩
  else if byte = 0xed then some ⟨13, 2, 0x80, 0x9f⟩
  else if 0xe1 ≤ byte && byte ≤ 0xef then some ⟨byte - 0xe0, 2, 0x80, 0xbf⟩
  else if byte = 0xf0 then some ⟨0, 3, 0x90, 0xbf⟩
  else if 0xf1 ≤ byte && byte ≤ 0xf3 then some ⟨byte - 0xf0, 3, 0x80, 0xbf⟩
  else if byte = 0xf4 then some ⟨4, 3, 0x80, 0x8f⟩
  else none

structure Partial where
  payload : Nat
  size : Nat
  missing : Nat
  least : Nat
  greatest : Nat

def readFrom (index : Nat) (found : List Char) :
    Option Partial → List UInt8 → Except Fault (List Char)
  | none, [] => .ok found.reverse
  | some p, [] => .error (.incomplete (index - p.size))
  | none, byte :: rest =>
    let n := byte.toNat
    if n < 0x80 then readFrom (index + 1) (Char.ofNat n :: found) none rest
    else
      match Lead.of? n with
      | none => .error (.invalid index 1)
      | some lead =>
        readFrom (index + 1) found
          (some ⟨lead.payload, 1, lead.following, lead.least, lead.greatest⟩) rest
  | some p, byte :: rest =>
    let n := byte.toNat
    if p.least ≤ n && n ≤ p.greatest then
      let payload := p.payload * 64 + (n - 0x80)
      if p.missing = 1 then readFrom (index + 1) (Char.ofNat payload :: found) none rest
      else
        readFrom (index + 1) found (some ⟨payload, p.size + 1, p.missing - 1, 0x80, 0xbf⟩) rest
    else .error (.invalid (index - p.size) p.size)

def decode (bytes : List UInt8) : Except Fault String :=
  (readFrom 0 [] none bytes).map String.ofList

end AwaLang.Text.Utf8
