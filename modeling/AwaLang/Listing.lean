import AwaLang.Instruction

namespace AwaLang.Listing

def targets (tokens : List Token) : List Token :=
  (Instruction.ofTokens tokens).filterMap (·.instruction.target?)

def address (n : Nat) : List Char := (Nat.toDigits 10 n).leftpad 4 '0'

def marker (targets : List Token) (instruction : Instruction) : List Char :=
  if instruction.label?.any (targets.contains ·) then ['►', ' '] else [' ', ' ']

def column (op : Opcode) : List Char := op.spelling.rightpad 4 ' '

def code : Instruction → List Char
  | .plain op => op.spelling
  | .applied op parameter => column op ++ Text.numeral parameter
  | .truncated op => column op ++ "<missing>".toList
  | .unknown token => "??? ; invalid code ".toList ++ Opcode.nameOf token

def line (targets : List Token) (placed : Instruction.Placed) : List Char :=
  address placed.address ++ ' ' :: marker targets placed.instruction ++ code placed.instruction

def lines (tokens : List Token) : List (List Char) :=
  (Instruction.ofTokens tokens).map (line (targets tokens))

def render (tokens : List Token) : String :=
  String.ofList ((lines tokens).flatMap (· ++ ['\n']))

end AwaLang.Listing
