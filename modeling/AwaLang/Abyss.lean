import AwaLang.Bubble.Basic

/-!
The abyss, the stack of bubbles a program works on. Every operation says how many bubbles it needs;
an underflow leaves the abyss as it was.
-/

namespace AwaLang

structure Abyss where
  topFirst : List Bubble
  deriving DecidableEq, Repr

structure Underflow where
  needed : Nat
  found : Nat
  deriving DecidableEq, Repr

namespace Abyss

def empty : Abyss := ⟨[]⟩

instance : Inhabited Abyss := ⟨empty⟩

def bottomUp (abyss : Abyss) : List Bubble := abyss.topFirst.reverse

def size (abyss : Abyss) : Nat := abyss.topFirst.length

def isEmpty (abyss : Abyss) : Bool := abyss.topFirst.isEmpty

def push (abyss : Abyss) (b : Bubble) : Abyss := ⟨b :: abyss.topFirst⟩

@[simp] theorem bottomUp_push (abyss : Abyss) (b : Bubble) :
    (abyss.push b).bottomUp = abyss.bottomUp ++ [b] := by
  simp [bottomUp, push]

/-- Looks no further down than to the last bubble that is needed. -/
def require (abyss : Abyss) (needed : Nat) : Except Underflow Unit :=
  if (abyss.topFirst.take needed).length < needed then .error ⟨needed, abyss.size⟩ else .ok ()

def pop : Abyss → Except Underflow (Bubble × Abyss)
  | ⟨a :: rest⟩ => .ok (a, ⟨rest⟩)
  | ⟨[]⟩ => .error ⟨1, 0⟩

def peek (abyss : Abyss) : Except Underflow Bubble := do
  let (a, _) ← abyss.pop
  return a

/-- The top bubble, the one below it, and what remains. -/
def popTwo : Abyss → Except Underflow (Bubble × Bubble × Abyss)
  | ⟨a :: b :: rest⟩ => .ok (a, b, ⟨rest⟩)
  | abyss => .error ⟨2, abyss.size⟩

def peekTwo (abyss : Abyss) : Except Underflow (Bubble × Bubble) := do
  let (a, b, _) ← abyss.popTwo
  return (a, b)

/-- Sinks the top bubble below the next `depth`, and to the bottom when `depth` is zero. -/
def submerge (abyss : Abyss) (depth : Nat) : Except Underflow Abyss := do
  let (a, rest) ← abyss.pop
  if depth = 0 then return ⟨rest.topFirst ++ [a]⟩
  return ⟨rest.topFirst.take depth ++ a :: rest.topFirst.drop depth⟩

/-- Bursts the top bubble: what it releases comes back, the last element on top. -/
def split (abyss : Abyss) : Except Underflow Abyss := do
  let (a, rest) ← abyss.pop
  return ⟨a.released.reverse ++ rest.topFirst⟩

def duplicate (abyss : Abyss) : Except Underflow Abyss := do
  let a ← abyss.peek
  return abyss.push a

/-- One bubble of the top `count`, from the deepest to the top; doubles give their elements. -/
def surround (abyss : Abyss) (count : Nat) : Except Underflow Abyss := do
  abyss.require count
  let gathered := (abyss.topFirst.take count).reverse.flatMap Bubble.toList
  return push ⟨abyss.topFirst.drop count⟩ (.ofList gathered)

def merge (abyss : Abyss) : Except Underflow Abyss := do
  let (a, b, rest) ← abyss.popTwo
  return rest.push (a.merge b)

def count (abyss : Abyss) : Except Underflow Abyss := do
  let a ← abyss.peek
  return abyss.push (.scalar a.size)

end Abyss

end AwaLang
