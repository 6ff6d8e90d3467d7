import AwaLang.Text.Numeral

/-!
The operations of the machine, their five-bit codes and their mnemonics. A token names an operation
by its residue modulo 32; nine residues name none.
-/

namespace AwaLang

/-- A number of the program stream: an operation, or the parameter of one (32 bits, signed). -/
abbrev Token := Int

def Token.least : Token := -2147483648

def Token.greatest : Token := 2147483647

inductive Opcode
  | nop | prn | pr1 | red | r3d
  | blo | sbm | pop | dpl | srn | mrg
  | add | sub | mul | div | cnt
  | lbl | jmp | eql | lss | gr8 | eqz
  | trm
  deriving DecidableEq, Repr

namespace Opcode

def all : List Opcode :=
  [nop, prn, pr1, red, r3d, blo, sbm, pop, dpl, srn, mrg, add, sub, mul, div, cnt,
   lbl, jmp, eql, lss, gr8, eqz, trm]

def code : Opcode → Nat
  | nop => 0 | prn => 1 | pr1 => 2 | red => 3 | r3d => 4
  | blo => 5 | sbm => 6 | pop => 7 | dpl => 8 | srn => 9 | mrg => 10
  | add => 11 | sub => 12 | mul => 13 | div => 14 | cnt => 15
  | lbl => 16 | jmp => 17 | eql => 18 | lss => 19 | gr8 => 20 | eqz => 21
  | trm => 31

def spelling : Opcode → List Char
  | nop => ['n', 'o', 'p'] | prn => ['p', 'r', 'n'] | pr1 => ['p', 'r', '1']
  | red => ['r', 'e', 'd'] | r3d => ['r', '3', 'd']
  | blo => ['b', 'l', 'o'] | sbm => ['s', 'b', 'm'] | pop => ['p', 'o', 'p']
  | dpl => ['d', 'p', 'l'] | srn => ['s', 'r', 'n'] | mrg => ['m', 'r', 'g']
  | add => ['4', 'd', 'd'] | sub => ['s', 'b', 't'] | mul => ['m', 'u', 'l']
  | div => ['d', 'v', 'd'] | cnt => ['c', 'n', 't']
  | lbl => ['l', 'b', 'l'] | jmp => ['j', 'm', 'p'] | eql => ['e', 'q', 'l']
  | lss => ['l', 's', 's'] | gr8 => ['g', 'r', '8'] | eqz => ['e', 'q', 'z']
  | trm => ['t', 'r', 'm']

def mnemonic (op : Opcode) : String := String.ofList op.spelling

def takesParameter : Opcode → Bool
  | blo | sbm | srn | lbl | jmp | eql | lss | gr8 | eqz => true
  | _ => false

def isJump : Opcode → Bool
  | jmp | eql | lss | gr8 | eqz => true
  | _ => false

def ofCode? (n : Nat) : Option Opcode := all.find? (·.code == n)

def decode (token : Token) : Option Opcode := ofCode? (token % 32).toNat

/-- Mnemonics are read in any mix of ASCII cases. -/
def ofMnemonic? (name : List Char) : Option Opcode :=
  all.find? (·.spelling == name.map Char.toLower)

/-- What a token is called as an operation: its mnemonic, or its residue where it has none. -/
def nameOf (token : Token) : List Char :=
  match decode token with
  | some op => op.spelling
  | none => Text.numeral (token % 32)

theorem ofCode?_code (op : Opcode) : ofCode? op.code = some op := by cases op <;> decide

theorem ofMnemonic?_spelling (op : Opcode) : ofMnemonic? op.spelling = some op := by
  cases op <;> decide

theorem code_of_ofCode? {n : Nat} {op : Opcode} (found : ofCode? n = some op) : op.code = n := by
  simpa using List.find?_some found

theorem code_lt (op : Opcode) : op.code < 32 := by cases op <;> decide

theorem takesParameter_of_isJump {op : Opcode} (jump : op.isJump) : op.takesParameter := by
  cases op <;> simp_all [isJump, takesParameter]

theorem decode_eq_of_emod_eq {a b : Token} (same : a % 32 = b % 32) : decode a = decode b := by
  simp [decode, same]

end Opcode

end AwaLang
