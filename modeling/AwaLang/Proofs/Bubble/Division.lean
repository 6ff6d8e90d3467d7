import AwaLang.Proofs.Bubble.Meetings
import Mathlib.Data.List.Forall2

namespace AwaLang

namespace Bubble

structure Divided (x y remainder quotient : Int) : Prop where
  inRange_remainder : inRange remainder = true
  inRange_quotient : inRange quotient = true
  recomposed : y * quotient + remainder = x
  smaller : remainder.natAbs < y.natAbs
  signed : remainder = 0 ∨ remainder.sign = x.sign

section Integers

variable {x y : Int}

theorem inRange_tmod (nonzero : y ≠ 0) (bounded : inRange y = true) :
    inRange (x.tmod y) = true := by
  rw [inRange_iff] at bounded ⊢
  have small := Nat.mod_lt x.natAbs (Int.natAbs_pos.2 nonzero)
  rw [← Int.natAbs_tmod] at small
  omega

/-- Only the quotient of the least integer by minus one leaves 64 bits. -/
theorem inRange_tdiv_iff (nonzero : y ≠ 0) (bounded : inRange x = true) :
    inRange (x.tdiv y) = true ↔ ¬ (x = -2 ^ 63 ∧ y = -1) := by
  rw [inRange_iff] at bounded ⊢
  -- A divisor of size two or more halves what it divides, at the least.
  rcases (by omega : y = 1 ∨ y = -1 ∨ 2 ≤ y.natAbs) with rfl | rfl | large
  · rw [Int.tdiv_one]
    omega
  · rw [Int.tdiv_neg, Int.tdiv_one]
    omega
  · have half : (x.tdiv y).natAbs ≤ x.natAbs / 2 := by
      rw [Int.natAbs_tdiv]
      exact Nat.div_le_div_left large Nat.zero_lt_two
    omega

theorem divided_tmod_tdiv (nonzero : y ≠ 0) (bounded : inRange y = true)
    (fits : inRange (x.tdiv y) = true) : Divided x y (x.tmod y) (x.tdiv y) where
  inRange_remainder := inRange_tmod nonzero bounded
  inRange_quotient := fits
  recomposed := Int.mul_tdiv_add_tmod x y
  smaller := by
    rw [Int.natAbs_tmod]
    exact Nat.mod_lt _ (Int.natAbs_pos.2 nonzero)
  signed := by
    have sign := Int.sign_tmod x y
    split at sign
    · exact .inl (Int.sign_eq_zero_iff_zero.1 sign)
    · exact .inr sign

theorem divide_eq_none_iff (bounded : inRange x = true) :
    divide x y = none ↔ y = 0 ∨ (x = -2 ^ 63 ∧ y = -1) := by
  by_cases zero : y = 0
  · simp [divide, zero]
  · have fits := inRange_tdiv_iff zero bounded
    rw [or_iff_right zero, ← not_iff_not, ← fits]
    simp [divide, zero]

theorem divided_of_divide_eq_some {remainder quotient : Int} (bounded : inRange y = true)
    (divided : divide x y = some (remainder, quotient)) : Divided x y remainder quotient := by
  obtain ⟨nonzero, fits, rfl, rfl⟩ := divide_eq_some_iff.1 divided
  exact divided_tmod_tdiv nonzero bounded fits

theorem exists_onScalars_div_iff :
    (∃ part, onScalars .div x y = .ok part) ↔ divide x y ≠ none := by
  rw [onScalars]
  split
  · rename_i divided
    simp [divided]
  · rename_i refused
    simp [refused]

theorem onScalars_div_eq_error_iff {fault : ArithmeticFault} (bounded : inRange x = true) :
    onScalars .div x y = .error fault ↔
      (fault = .divisionByZero ∧ y = 0) ∨ (fault = .overflow ∧ x = -2 ^ 63 ∧ y = -1) := by
  have refused := divide_eq_none_iff (y := y) bounded
  rw [onScalars]
  split
  · rename_i divided
    have defined : ¬ (y = 0 ∨ (x = -2 ^ 63 ∧ y = -1)) := by
      rw [← refused, divided]
      exact Option.some_ne_none _
    constructor
    · intro failed
      contradiction
    · rintro (⟨-, zero⟩ | ⟨-, extreme⟩)
      · exact absurd (.inl zero) defined
      · exact absurd (.inr extreme) defined
  · rename_i none
    rcases refused.1 none with rfl | ⟨rfl, rfl⟩ <;> simp [eq_comm]

end Integers

def Bounded (b : Bubble) : Prop := ∀ n ∈ b.flatten, inRange n = true

instance (b : Bubble) : Decidable b.Bounded :=
  inferInstanceAs (Decidable (∀ n ∈ b.flatten, inRange n = true))

variable {a b : Bubble}

theorem Bounded.of_mem_toList {part : Bubble} (bounded : b.Bounded) (member : part ∈ b.toList) :
    part.Bounded := by
  intro n inside
  apply bounded
  rw [← flatten_toList]
  exact List.mem_flatMap_of_mem member inside

theorem Bounded.of_mem_meetings {p : Int × Int} (bounded : a.Bounded)
    (deep : b.Bounded) (member : p ∈ a.meetings b) :
    inRange p.1 = true ∧ inRange p.2 = true := by
  induction a, b using meeting_induction with
  | scalars x y =>
    obtain rfl : p = (x, y) := by simpa [meetings, flatten] using member
    exact ⟨bounded x (List.mem_singleton_self x), deep y (List.mem_singleton_self y)⟩
  | apart a b compound ih =>
    rw [meetings_apart compound] at member
    obtain ⟨q, among, inside⟩ := List.mem_flatMap.1 member
    obtain ⟨left, right⟩ := mem_toList_of_mem_partners among
    exact ih q among (bounded.of_mem_toList left) (deep.of_mem_toList right) inside

theorem divided_of_mem_meetings {result : Bubble} {p : Int × Int} (bounded : a.Bounded)
    (deep : b.Bounded) (combined : a.combine .div b = .ok result) (member : p ∈ a.meetings b) :
    Divided p.1 p.2 (p.1.tmod p.2) (p.1.tdiv p.2) := by
  have possible := exists_zipLeaves_eq_ok_iff.1 ⟨result, combined⟩ p member
  obtain ⟨⟨remainder, quotient⟩, divided⟩ :=
    Option.ne_none_iff_exists'.1 (exists_onScalars_div_iff.1 possible)
  obtain ⟨nonzero, fits, -⟩ := divide_eq_some_iff.1 divided
  exact divided_tmod_tdiv nonzero (bounded.of_mem_meetings deep member).2 fits

theorem exists_quotients_of_combine_div {result : Bubble} (bounded : a.Bounded) (deep : b.Bounded)
    (filled : a.Filled) (full : b.Filled) (combined : a.combine .div b = .ok result) :
    ∃ parts : List (Int × Int),
      List.Forall₂ (fun p part => Divided p.1 p.2 part.1 part.2) (a.meetings b) parts ∧
      result.flatten = parts.flatMap fun part => [part.1, part.2] := by
  refine ⟨(a.meetings b).map fun p => (p.1.tmod p.2, p.1.tdiv p.2), ?_, ?_⟩
  · rw [List.forall₂_map_right_iff, List.forall₂_same]
    intro p member
    exact divided_of_mem_meetings bounded deep combined member
  · rw [List.flatMap_map]
    exact flatten_zipLeaves (fun _ _ _ => flatten_onScalars) filled full combined

theorem combine_div_eq_error_iff {fault : ArithmeticFault} (bounded : a.Bounded)
    (deep : b.Bounded) :
    a.combine .div b = .error fault ↔
      ∃ before x y after, a.meetings b = before ++ (x, y) :: after ∧
        (∀ p ∈ before, divide p.1 p.2 ≠ none) ∧
        ((fault = .divisionByZero ∧ y = 0) ∨ (fault = .overflow ∧ x = -2 ^ 63 ∧ y = -1)) := by
  have inside : ∀ before x y after, a.meetings b = before ++ (x, y) :: after →
      inRange x = true := by
    intro before x y after split
    have member : (x, y) ∈ a.meetings b := by simp [split]
    exact (bounded.of_mem_meetings deep member).1
  rw [combine, zipLeaves_eq_error_iff]
  simp only [exists_onScalars_div_iff]
  constructor
  · rintro ⟨before, ⟨x, y⟩, after, split, failed, possible⟩
    have reason := (onScalars_div_eq_error_iff (inside before x y after split)).1 failed
    exact ⟨before, x, y, after, split, possible, reason⟩
  · rintro ⟨before, x, y, after, split, possible, reason⟩
    have failed := (onScalars_div_eq_error_iff (inside before x y after split)).2 reason
    exact ⟨before, (x, y), after, split, failed, possible⟩

/-- Division by zero and the one quotient that has no place in 64 bits are refused; every other
quotient is rounded toward zero and adds up with its remainder. Bubbles divide in this way wherever
their integers meet, each remainder followed by its quotient, and the first two integers that cannot
be divided say why bubbles cannot. -/
theorem division_truncates :
    (∀ x y, inRange x = true → inRange y = true →
      (divide x y = none ↔ y = 0 ∨ (x = -2 ^ 63 ∧ y = -1)) ∧
      ∀ remainder quotient, divide x y = some (remainder, quotient) →
        Divided x y remainder quotient) ∧
    ∀ a b : Bubble, a.Bounded → b.Bounded →
      (∀ result, a.Filled → b.Filled → a.combine .div b = .ok result →
        ∃ parts : List (Int × Int),
          List.Forall₂ (fun p part => Divided p.1 p.2 part.1 part.2) (a.meetings b) parts ∧
          result.flatten = parts.flatMap fun part => [part.1, part.2]) ∧
      ∀ fault, a.combine .div b = .error fault ↔
        ∃ before x y after, a.meetings b = before ++ (x, y) :: after ∧
          (∀ p ∈ before, divide p.1 p.2 ≠ none) ∧
          ((fault = .divisionByZero ∧ y = 0) ∨
            (fault = .overflow ∧ x = -2 ^ 63 ∧ y = -1)) := by
  constructor
  · intro x y bounded deep
    refine ⟨divide_eq_none_iff bounded, ?_⟩
    intro remainder quotient divided
    exact divided_of_divide_eq_some deep divided
  · intro a b bounded deep
    constructor
    · intro result filled full combined
      exact exists_quotients_of_combine_div bounded deep filled full combined
    · intro fault
      exact combine_div_eq_error_iff bounded deep

theorem division_truncates_nested :
    (divide (-7) 2 = some (-1, -3) ∧ Divided (-7) 2 (-1) (-3)) ∧
    ((double [.scalar (-7), .double [.scalar 9, .scalar (-2 ^ 63)]]).combine .div
        (.double [.scalar 2, .scalar (-4), .scalar 0]) =
      .ok (.double [.double [.scalar (-1), .scalar (-3)],
        .double [.double [.scalar 1, .scalar (-2)], .double [.scalar 0, .scalar (2 ^ 61)]]]) ∧
      ∃ parts : List (Int × Int),
        List.Forall₂ (fun p part => Divided p.1 p.2 part.1 part.2)
          [(-7, 2), (9, -4), (-2 ^ 63, -4)] parts ∧
        [-1, -3, 1, -2, 0, 2 ^ 61] = parts.flatMap fun part => [part.1, part.2]) ∧
    (double [.scalar 1, .scalar (-2 ^ 63)]).combine .div (.scalar (-1)) = .error .overflow := by
  have pair : divide (-7) 2 = some (-1, -3) := by decide
  have left : Bounded (.double [.scalar (-7), .double [.scalar 9, .scalar (-2 ^ 63)]]) := by
    decide
  have right : Bounded (.double [.scalar 2, .scalar (-4), .scalar 0]) := by decide
  have combined : (double [.scalar (-7), .double [.scalar 9, .scalar (-2 ^ 63)]]).combine .div
        (.double [.scalar 2, .scalar (-4), .scalar 0]) =
      .ok (.double [.double [.scalar (-1), .scalar (-3)],
        .double [.double [.scalar 1, .scalar (-2)],
          .double [.scalar 0, .scalar (2 ^ 61)]]]) := by
    rfl
  refine ⟨⟨pair, (division_truncates.1 (-7) 2 (by decide) (by decide)).2 _ _ pair⟩,
    ⟨combined, ?_⟩, ?_⟩
  · exact (division_truncates.2 _ _ left right).1 _ (by simp) (by simp) combined
  · exact ((division_truncates.2 _ _ (by decide) (by decide)).2 .overflow).2
      ⟨[(1, -1)], -2 ^ 63, -1, [], rfl, by decide, .inr ⟨rfl, rfl, rfl⟩⟩

end Bubble

end AwaLang
