import AwaLang.Alphabet
import AwaLang.Text.Numeral

/-!
Bubbles, the only values a program holds: a 64-bit integer, or a double, a sequence of bubbles.
Lists are taken up by `ofList`, which leaves no double with fewer than two elements.
-/

namespace AwaLang

inductive Bubble
  | scalar (value : Int)
  | double (elements : List Bubble)
  deriving Repr

namespace Bubble

instance : Inhabited Bubble := ⟨.scalar 0⟩

mutual

def beq : Bubble → Bubble → Bool
  | scalar m, scalar n => m == n
  | double xs, double ys => beqAll xs ys
  | scalar _, double _ => false
  | double _, scalar _ => false

def beqAll : List Bubble → List Bubble → Bool
  | [], [] => true
  | x :: xs, y :: ys => x.beq y && beqAll xs ys
  | [], _ :: _ => false
  | _ :: _, [] => false

end

mutual

theorem eq_of_beq : (a b : Bubble) → a.beq b = true → a = b
  | scalar m, scalar n, same => by simpa [beq] using same
  | double xs, double ys, same => by
    rw [beq] at same
    rw [eq_of_beqAll xs ys same]
  | scalar _, double _, same => by simp [beq] at same
  | double _, scalar _, same => by simp [beq] at same

theorem eq_of_beqAll : (xs ys : List Bubble) → beqAll xs ys = true → xs = ys
  | [], [], _ => rfl
  | x :: xs, y :: ys, same => by
    rw [beqAll, Bool.and_eq_true] at same
    rw [eq_of_beq x y same.1, eq_of_beqAll xs ys same.2]
  | [], _ :: _, same => by simp [beqAll] at same
  | _ :: _, [], same => by simp [beqAll] at same

end

mutual

theorem beq_self : (a : Bubble) → a.beq a = true
  | scalar n => by simp [beq]
  | double xs => by rw [beq, beqAll_self xs]

theorem beqAll_self : (xs : List Bubble) → beqAll xs xs = true
  | [] => rfl
  | x :: xs => by rw [beqAll, beq_self x, beqAll_self xs, Bool.and_self]

end

instance : DecidableEq Bubble := fun a b =>
  decidable_of_iff (a.beq b = true) ⟨eq_of_beq a b, fun same => same ▸ beq_self a⟩

/-- An empty list is zero and a single element stands for itself. -/
def ofList : List Bubble → Bubble
  | [] => scalar 0
  | [b] => b
  | bs => double bs

def ofInts (values : List Int) : Bubble := ofList (values.map scalar)

def toList : Bubble → List Bubble
  | scalar n => [scalar n]
  | double bs => bs

def released : Bubble → List Bubble
  | scalar _ => []
  | double bs => bs

/-- One double with the elements of `below`, then those of `b`. -/
def merge (b below : Bubble) : Bubble := double (below.toList ++ b.toList)

def isDouble : Bubble → Bool
  | scalar _ => false
  | double _ => true

def size (b : Bubble) : Nat := b.released.length

def isZero : Bubble → Bool
  | scalar n => n == 0
  | double _ => false

mutual

def flatten : Bubble → List Int
  | scalar n => [n]
  | double bs => flattenAll bs

def flattenAll : List Bubble → List Int
  | [] => []
  | b :: bs => b.flatten ++ flattenAll bs

end

theorem flattenAll_eq_flatMap (bs : List Bubble) : flattenAll bs = bs.flatMap flatten := by
  induction bs with
  | nil => rfl
  | cons b bs ih => rw [flattenAll, ih, List.flatMap_cons]

theorem flatten_toList (b : Bubble) : b.toList.flatMap flatten = b.flatten := by
  cases b with
  | scalar n => simp [toList]
  | double bs => rw [toList, flatten, flattenAll_eq_flatMap]

theorem flatten_ofList (bs : List Bubble) (nonempty : bs ≠ []) :
    (ofList bs).flatten = bs.flatMap flatten := by
  cases bs with
  | nil => exact absurd rfl nonempty
  | cons b rest =>
    cases rest with
    | nil => simp [ofList]
    | cons => simp [ofList, flatten, flattenAll_eq_flatMap]

theorem flatten_merge (b below : Bubble) :
    (b.merge below).flatten = below.flatten ++ b.flatten := by
  rw [merge, flatten, flattenAll_eq_flatMap, List.flatMap_append, flatten_toList, flatten_toList]

def letters (b : Bubble) : Except Alphabet.Fault String :=
  (b.flatten.mapM Alphabet.letter).map String.ofList

def numerals (b : Bubble) : List Char :=
  [' '].intercalate (b.flatten.map Text.numeral)

def text (b : Bubble) : String := String.ofList b.numerals

mutual

def bracketed : Bubble → List Char
  | scalar n => Text.numeral n
  | double bs => '[' :: bracketedAll bs ++ [']']

def bracketedAll : List Bubble → List Char
  | [] => []
  | [b] => b.bracketed
  | b :: bs => b.bracketed ++ ',' :: bracketedAll bs

end

end Bubble

end AwaLang
