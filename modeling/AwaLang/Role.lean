import AwaLang.Opcode

/-!
The two roles of a token in the stream. A token is a parameter exactly when the one before it is an
opcode that takes one; the role fixes how many bits spell it.
-/

namespace AwaLang

inductive Role
  | opcode
  | parameter
  deriving DecidableEq, Repr

namespace Role

def width : Role → Nat
  | opcode => 5
  | parameter => 8

/-- The least token that the width has room for: a negative number gives one bit to its sign. -/
def least : Role → Token
  | opcode => -16
  | parameter => -128

def greatest : Role → Token
  | opcode => 31
  | parameter => 255

def fits (role : Role) (token : Token) : Bool := role.least ≤ token && token ≤ role.greatest

def next (role : Role) (token : Token) : Role :=
  match role with
  | parameter => opcode
  | opcode => if (Opcode.decode token).any Opcode.takesParameter then parameter else opcode

def assign (role : Role) : List Token → List (Role × Token)
  | [] => []
  | token :: rest => (role, token) :: assign (role.next token) rest

@[simp] theorem length_assign (role : Role) (tokens : List Token) :
    (assign role tokens).length = tokens.length := by
  induction tokens generalizing role with
  | nil => rfl
  | cons token rest ih => simp [assign, ih]

end Role

end AwaLang
