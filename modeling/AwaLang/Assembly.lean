import AwaLang.Opcode
import AwaLang.Text.Blank

/-!
Assembly text: one instruction a line, a mnemonic or a bare code and, where the operation takes one,
a parameter. A semicolon begins a comment, and a line without words is skipped.
-/

namespace AwaLang.Assembly

inductive Cause
  | unknownMnemonic (name : List Char)
  | missingOperand (op : Opcode)
  | unexpectedOperand (text : List Char)
  | invalidOperand (text : List Char)
  deriving DecidableEq, Repr

structure Fault where
  /-- The number of the line, from one. -/
  line : Nat
  cause : Cause
  deriving DecidableEq, Repr

def Cause.message : Cause → String
  | .unknownMnemonic name => s!"unknown mnemonic '{String.ofList name}'"
  | .missingOperand op => s!"{op.mnemonic} expects a parameter"
  | .unexpectedOperand text => s!"unexpected operand '{String.ofList text}'"
  | .invalidOperand text => s!"invalid operand '{String.ofList text}'"

def Fault.message (fault : Fault) : String := s!"line {fault.line}: {fault.cause.message}"

/-- The code that a line begins with: that of a mnemonic, or a number below 32. -/
def code? (name : List Char) : Option Nat :=
  (Opcode.ofMnemonic? name).map Opcode.code <|> Text.natural? 32 name

def operandOf (text : List Char) : Except Cause Token :=
  match Text.integer? Token.least Token.greatest text with
  | some n => .ok n
  | none => .error (.invalidOperand text)

def instruction (name : List Char) (operand : Option (List Char)) : Except Cause (List Token) :=
  match code? name with
  | none => .error (.unknownMnemonic name)
  | some code =>
    match (Opcode.ofCode? code).filter Opcode.takesParameter, operand with
    | some _, some text => (operandOf text).map fun parameter => [(code : Token), parameter]
    | some op, none => .error (.missingOperand op)
    | none, some text => .error (.unexpectedOperand text)
    | none, none => .ok [(code : Token)]

def wordsOf (line : List Char) : List (List Char) := Text.words (line.takeWhile (· != ';'))

/-- A third word is refused before anything else is looked at. -/
def assembleLine (line : List Char) : Except Cause (List Token) :=
  match wordsOf line with
  | [] => .ok []
  | [name] => instruction name none
  | [name, operand] => instruction name (some operand)
  | _ :: _ :: extra :: _ => .error (.unexpectedOperand extra)

def assembleLines (number : Nat) : List (List Char) → Except Fault (List Token)
  | [] => .ok []
  | line :: rest =>
    match assembleLine line with
    | .error cause => .error ⟨number, cause⟩
    | .ok tokens => (assembleLines (number + 1) rest).map (tokens ++ ·)

def assemble (text : String) : Except Fault (List Token) := assembleLines 1 (Text.lines text.toList)

end AwaLang.Assembly
