import AwaLang.Role

namespace AwaLang.TokenTable

inductive Kind
  | opcode
  | parameter
  | invalid
  deriving DecidableEq, Repr

def Kind.of (role : Role) (token : Token) : Kind :=
  match role, Opcode.decode token with
  | .parameter, _ => .parameter
  | .opcode, some _ => .opcode
  | .opcode, none => .invalid

def Kind.title : Kind → List Char
  | .opcode => "OPCODE".toList
  | .parameter => "PARAM".toList
  | .invalid => "INVALID".toList

def reset : List Char := "\x1b[0m".toList

def Kind.colour : Kind → List Char
  | .opcode => "\x1b[33m".toList
  | .parameter => "\x1b[36m".toList
  | .invalid => "\x1b[31m".toList

def Kind.label (kind : Kind) (token : Token) : List Char :=
  match kind with
  | .parameter => []
  | _ => Opcode.nameOf token

def row (coloured : Bool) (index : Nat) (role : Role) (token : Token) : List Char :=
  let kind := Kind.of role token
  let paint (colour : List Char) := if coloured then colour else []
  '[' :: (Nat.toDigits 10 index).leftpad 4 '0' ++ [']', ' '] ++ paint kind.colour ++
    kind.title.rightpad 8 ' ' ++ ' ' :: (Text.numeral token).leftpad 5 ' ' ++
    ' ' :: kind.label token ++ paint reset

def rows (coloured : Bool) (tokens : List Token) : List (List Char) :=
  (Role.assign .opcode tokens).zipIdx.map fun ((role, token), index) =>
    row coloured index role token

def render (coloured : Bool) (tokens : List Token) : String :=
  String.ofList ((rows coloured tokens).flatMap (· ++ ['\n']))

end AwaLang.TokenTable
