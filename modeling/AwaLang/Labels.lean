import AwaLang.Instruction

/-!
Label tables. A label stands for the index of its own parameter, so that a jump goes on just after
it; of several definitions the last one holds.
-/

namespace AwaLang

structure Labels where
  entries : List (Token × Nat)
  deriving DecidableEq, Repr

namespace Labels

def empty : Labels := ⟨[]⟩

def define (labels : Labels) (label : Token) (index : Nat) : Labels :=
  ⟨(label, index) :: labels.entries.filter (·.1 != label)⟩

def find? (labels : Labels) (label : Token) : Option Nat := labels.entries.lookup label

/-- Where a jump leads from the instruction before `next`: past the label, or on to `next` if nobody
defined it. -/
def goto (labels : Labels) (label : Token) (next : Nat) : Nat :=
  match labels.find? label with
  | some index => index + 1
  | none => next

def size (labels : Labels) : Nat := labels.entries.length

def sorted (labels : Labels) : List (Token × Nat) := labels.entries.mergeSort (·.1 ≤ ·.1)

def record (labels : Labels) (placed : Instruction.Placed) : Labels :=
  match placed.instruction.label? with
  | some label => labels.define label (placed.address + 1)
  | none => labels

/-- The labels of a stream; none if the stream ends in a label without a name. -/
def ofTokens? (tokens : List Token) : Option Labels :=
  let instructions := Instruction.ofTokens tokens
  if instructions.any (·.instruction == .truncated .lbl) then none
  else some (instructions.foldl record empty)

end Labels

end AwaLang
