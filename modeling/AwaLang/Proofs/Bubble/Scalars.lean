import AwaLang.Bubble.Arithmetic
import Mathlib.Algebra.Group.Int.Defs

namespace AwaLang

def ArithmeticOp.integers (op : ArithmeticOp) (x y : Int) : List Int :=
  match op with
  | .add => [x + y]
  | .sub => [x - y]
  | .mul => [x * y]
  | .div => [x.tmod y, x.tdiv y]

namespace Bubble

theorem inRange_iff {n : Int} : inRange n = true ↔ -2 ^ 63 ≤ n ∧ n < 2 ^ 63 := by
  rw [inRange, Bool.and_eq_true, decide_eq_true_iff, decide_eq_true_iff, least, greatest]
  omega

theorem eq_scalar_of_checked {n : Int} {part : Bubble} (made : checked n = .ok part) :
    part = scalar n := by
  rw [checked] at made
  split at made
  · exact (Except.ok.inj made).symm
  · contradiction

theorem checked_eq_error_iff {n : Int} {fault : ArithmeticFault} :
    checked n = .error fault ↔ fault = .overflow ∧ ¬ inRange n = true := by
  rw [checked]
  split
  · rename_i inside
    constructor
    · intro refused
      contradiction
    · rintro ⟨-, outside⟩
      exact absurd inside outside
  · rename_i outside
    rw [Except.error.injEq, eq_comm]
    exact ⟨fun same => ⟨same, outside⟩, And.left⟩

theorem divide_eq_some_iff {x y remainder quotient : Int} :
    divide x y = some (remainder, quotient) ↔
      y ≠ 0 ∧ inRange (x.tdiv y) = true ∧ remainder = x.tmod y ∧ quotient = x.tdiv y := by
  by_cases zero : y = 0
  · simp [divide, zero]
  · cases inside : inRange (x.tdiv y) with
    | false => simp [divide, zero, inside]
    | true => simp [divide, zero, inside, eq_comm (a := remainder), eq_comm (a := quotient)]

theorem onScalars_eq_ofInts {op : ArithmeticOp} {x y : Int} {part : Bubble}
    (made : onScalars op x y = .ok part) : part = ofInts (op.integers x y) := by
  cases op with
  | add | sub | mul => exact eq_scalar_of_checked made
  | div =>
    simp only [onScalars] at made
    split at made
    · rename_i remainder quotient divided
      obtain ⟨-, -, rfl, rfl⟩ := divide_eq_some_iff.1 divided
      exact (Except.ok.inj made).symm
    · contradiction

theorem flatten_onScalars {op : ArithmeticOp} {x y : Int} {part : Bubble}
    (made : onScalars op x y = .ok part) : part.flatten = op.integers x y := by
  rw [onScalars_eq_ofInts made]
  cases op <;> rfl

end Bubble

end AwaLang
