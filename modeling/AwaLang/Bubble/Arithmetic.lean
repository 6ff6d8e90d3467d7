import AwaLang.Bubble.Basic
import AwaLang.Opcode

/-!
Arithmetic and comparison of bubbles. An operation on integers reaches the leaves of two bubbles: a
scalar meets every element of a double, and two doubles meet element by element up to the shorter.
Integers stay in 64 bits; what leaves them is refused.
-/

namespace AwaLang

inductive ArithmeticOp
  | add | sub | mul | div
  deriving DecidableEq, Repr

def Opcode.arithmetic? : Opcode → Option ArithmeticOp
  | add => some .add
  | sub => some .sub
  | mul => some .mul
  | div => some .div
  | _ => none

def ArithmeticOp.opcode : ArithmeticOp → Opcode
  | add => .add
  | sub => .sub
  | mul => .mul
  | div => .div

theorem Opcode.arithmetic?_eq_some_iff {op : Opcode} {arithmetic : ArithmeticOp} :
    op.arithmetic? = some arithmetic ↔ arithmetic.opcode = op := by
  cases op <;> cases arithmetic <;> simp [arithmetic?, ArithmeticOp.opcode]

inductive ArithmeticFault
  | divisionByZero
  | overflow
  deriving DecidableEq, Repr

namespace Bubble

def least : Int := -9223372036854775808

def greatest : Int := 9223372036854775807

def inRange (n : Int) : Bool := least ≤ n && n ≤ greatest

def checked (n : Int) : Except ArithmeticFault Bubble :=
  if inRange n then .ok (.scalar n) else .error .overflow

/-- The remainder and the quotient of `x` by `y`, the quotient rounded toward zero. -/
def divide (x y : Int) : Option (Int × Int) :=
  if y = 0 || !inRange (x.tdiv y) then none else some (x.tmod y, x.tdiv y)

def onScalars (op : ArithmeticOp) (x y : Int) : Except ArithmeticFault Bubble :=
  match op with
  | .add => checked (x + y)
  | .sub => checked (x - y)
  | .mul => checked (x * y)
  | .div =>
    match divide x y with
    | some (remainder, quotient) => .ok (.double [.scalar remainder, .scalar quotient])
    | none => .error (if y = 0 then .divisionByZero else .overflow)

variable {ε : Type}

mutual

/-- Replaces every integer by what `f` makes of it; the leftmost refusal is the answer. -/
def mapLeaves (f : Int → Except ε Bubble) : Bubble → Except ε Bubble
  | scalar n => f n
  | double bs => (mapLeavesAll f bs).map ofList

def mapLeavesAll (f : Int → Except ε Bubble) : List Bubble → Except ε (List Bubble)
  | [] => .ok []
  | b :: bs => do
    let head ← mapLeaves f b
    let tail ← mapLeavesAll f bs
    return head :: tail

end

mutual

def zipLeaves (f : Int → Int → Except ε Bubble) : Bubble → Bubble → Except ε Bubble
  | scalar x, b => b.mapLeaves (f x)
  | double xs, scalar y => (double xs).mapLeaves (f · y)
  | double xs, double ys => (zipLeavesAll f xs ys).map ofList

def zipLeavesAll (f : Int → Int → Except ε Bubble) :
    List Bubble → List Bubble → Except ε (List Bubble)
  | x :: xs, y :: ys => do
    let head ← zipLeaves f x y
    let tail ← zipLeavesAll f xs ys
    return head :: tail
  | [], _ => .ok []
  | _ :: _, [] => .ok []

end

/-- `op` on the bubble that was on top and the one below it. -/
def combine (op : ArithmeticOp) (top below : Bubble) : Except ArithmeticFault Bubble :=
  zipLeaves (onScalars op) top below

def less : Bubble → Bubble → Bool
  | scalar x, scalar y => x < y
  | _, _ => false

/-- The test of `gr8`, which looks in the same direction as `less`. -/
def greater (top below : Bubble) : Bool := less top below

end Bubble

end AwaLang
