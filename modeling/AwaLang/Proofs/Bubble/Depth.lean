import AwaLang.Proofs.Bubble.Broadcast
import AwaLang.Proofs.Bubble.Closed
import AwaLang.Proofs.Bubble.Scalars
import Mathlib.Data.Set.List

/-!
How deep bubbles are nested. Whatever is rearranged, no double gets further in than it was; of the
arithmetic only division adds a level, the pair that it puts in the place of an integer.
-/

namespace AwaLang

def ArithmeticOp.levels : ArithmeticOp → Nat
  | div => 1
  | _ => 0

namespace Bubble

mutual

def depth : Bubble → Nat
  | scalar _ => 0
  | double bs => 1 + maxDepth bs

def maxDepth : List Bubble → Nat
  | [] => 0
  | b :: bs => max b.depth (maxDepth bs)

end

variable {b below part : Bubble} {bs : List Bubble} {n : Nat}

theorem maxDepth_le_iff : maxDepth bs ≤ n ↔ ∀ b ∈ bs, b.depth ≤ n := by
  induction bs with
  | nil => simp [maxDepth]
  | cons b bs ih => rw [maxDepth, Nat.max_le, ih, List.forall_mem_cons]

@[simp] theorem depth_scalar (value : Int) : (scalar value).depth = 0 := rfl

theorem depth_double_le_iff : (double bs).depth ≤ 1 + n ↔ ∀ b ∈ bs, b.depth ≤ n := by
  rw [depth, Nat.add_le_add_iff_left, maxDepth_le_iff]

theorem depth_pos_of_isDouble (compound : b.isDouble = true) : 0 < b.depth := by
  cases b with
  | scalar value => contradiction
  | double bs => exact Nat.lt_add_right (maxDepth bs) Nat.zero_lt_one

theorem depth_ofList_le (parts : ∀ b ∈ bs, b.depth ≤ n) : (ofList bs).depth ≤ 1 + n := by
  match bs, parts with
  | [], _ => exact Nat.zero_le _
  | [b], parts => exact Nat.le_add_left_of_le (parts b List.mem_cons_self)
  | b :: c :: rest, parts => exact depth_double_le_iff.2 parts

theorem depth_le_of_mem_toList (shallow : b.depth ≤ 1 + n) (member : part ∈ b.toList) :
    part.depth ≤ n := by
  cases b with
  | scalar value =>
    rw [List.mem_singleton.1 member]
    exact Nat.zero_le n
  | double bs => exact depth_double_le_iff.1 shallow part member

theorem depth_le_of_mem_released (shallow : b.depth ≤ 1 + n) (member : part ∈ b.released) :
    part.depth ≤ n := by
  cases b with
  | scalar value => contradiction
  | double bs => exact depth_double_le_iff.1 shallow part member

theorem depth_merge_le (first : b.depth ≤ 1 + n) (second : below.depth ≤ 1 + n) :
    (b.merge below).depth ≤ 1 + n := by
  apply depth_double_le_iff.2
  intro part member
  rcases List.mem_append.1 member with lower | upper
  · exact depth_le_of_mem_toList second lower
  · exact depth_le_of_mem_toList first upper

theorem closed_depth_le (n : Nat) : Closed fun b => b.depth ≤ 1 + n where
  scalar value := Nat.zero_le (1 + n)
  released shallow member := Nat.le_add_left_of_le (depth_le_of_mem_released shallow member)
  gathered := by
    intro bs shallow
    apply depth_ofList_le
    intro part member
    obtain ⟨b, gathered, inside⟩ := List.mem_flatMap.1 member
    exact depth_le_of_mem_toList (shallow b gathered) inside
  merged := depth_merge_le

theorem depth_onScalars_le {op : ArithmeticOp} {x y : Int} (made : onScalars op x y = .ok part) :
    part.depth ≤ op.levels := by
  rw [onScalars_eq_ofInts made]
  cases op <;> exact Nat.le_refl _

/-- A result is nested as deep as the deeper operand, and a quotient by one level more: a scalar is
handed on to the level of what it meets. -/
theorem depth_combine_le {op : ArithmeticOp} {a b result : Bubble} (first : a.depth ≤ n)
    (second : b.depth ≤ n) (combined : a.combine op b = .ok result) :
    result.depth ≤ n + op.levels := by
  rw [combine] at combined
  induction a, b using meeting_induction generalizing n result with
  | scalars x y => exact Nat.le_add_left_of_le (depth_onScalars_le combined)
  | apart a b compound ih =>
    -- One of the two is a double, so that there is a level to go down.
    obtain ⟨n, rfl⟩ : ∃ m, n = 1 + m := by
      have deep : 0 < n := by
        rcases Bool.or_eq_true_iff.1 compound with left | right
        · exact Nat.lt_of_lt_of_le (depth_pos_of_isDouble left) first
        · exact Nat.lt_of_lt_of_le (depth_pos_of_isDouble right) second
      exact ⟨n - 1, by omega⟩
    rw [zipLeaves_apart _ compound] at combined
    obtain ⟨parts, done, rfl⟩ := exists_of_map_eq_ok combined
    rw [Nat.add_assoc]
    refine depth_ofList_le (forall_of_mapM_eq_ok done ?_)
    intro p member part made
    obtain ⟨left, right⟩ := mem_toList_of_mem_partners member
    exact ih p member (depth_le_of_mem_toList first left) (depth_le_of_mem_toList second right) made

theorem depth_eq_zero_iff : b.depth = 0 ↔ ∃ value, b = scalar value := by
  cases b with
  | scalar value => exact ⟨fun _ => ⟨value, rfl⟩, fun _ => rfl⟩
  | double bs => simp [depth]

theorem depth_le_one_iff :
    b.depth ≤ 1 ↔
      (∃ value, b = scalar value) ∨ ∃ values : List Int, b = double (values.map scalar) := by
  cases b with
  | scalar value => simp
  | double bs =>
    have row : (∀ b ∈ bs, ∃ value, scalar value = b) ↔ ∃ values, List.map scalar values = bs :=
      (Set.ext_iff.1 (Set.range_list_map scalar) bs).symm
    rw [← Nat.add_zero 1, depth_double_le_iff]
    simp only [Nat.le_zero, depth_eq_zero_iff, eq_comm (b := scalar _), row, reduceCtorEq,
      exists_const, double.injEq, false_or, eq_comm (a := bs)]

end Bubble

end AwaLang
