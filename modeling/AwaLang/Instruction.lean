import AwaLang.Opcode

namespace AwaLang

inductive Instruction
  | plain (op : Opcode)
  | applied (op : Opcode) (parameter : Token)
  /-- The stream ends where the parameter of `op` should be. -/
  | truncated (op : Opcode)
  | unknown (token : Token)
  deriving DecidableEq, Repr

namespace Instruction

structure Placed where
  address : Nat
  instruction : Instruction
  deriving DecidableEq, Repr

def placeFrom (address : Nat) : List Token → List Placed
  | [] => []
  | token :: rest =>
    match Opcode.decode token with
    | none => ⟨address, unknown token⟩ :: placeFrom (address + 1) rest
    | some op =>
      if op.takesParameter then
        match rest with
        | [] => [⟨address, truncated op⟩]
        | parameter :: rest => ⟨address, applied op parameter⟩ :: placeFrom (address + 2) rest
      else ⟨address, plain op⟩ :: placeFrom (address + 1) rest

def ofTokens (tokens : List Token) : List Placed := placeFrom 0 tokens

def at? (tokens : List Token) (index : Nat) : Option Instruction :=
  tokens[index]?.map fun token =>
    match Opcode.decode token with
    | none => unknown token
    | some op =>
      if op.takesParameter then
        match tokens[index + 1]? with
        | none => truncated op
        | some parameter => applied op parameter
      else plain op

def target? : Instruction → Option Token
  | applied op parameter => if op.isJump then some parameter else none
  | _ => none

def label? : Instruction → Option Token
  | applied .lbl parameter => some parameter
  | _ => none

end Instruction

end AwaLang
