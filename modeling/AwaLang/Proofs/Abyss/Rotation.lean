import AwaLang.Proofs.Abyss.Operations
import Mathlib.Data.List.Rotate

namespace AwaLang.Abyss

/-- How many of so many bubbles turn round when the top one sinks. -/
def turning (size depth : Nat) : Nat := if depth = 0 ∨ size ≤ depth then size else depth + 1

def turned (abyss : Abyss) (depth times : Nat) : Abyss :=
  ⟨(abyss.topFirst.take (turning abyss.size depth)).rotate times ++
    abyss.topFirst.drop (turning abyss.size depth)⟩

theorem turning_le (size depth : Nat) : turning size depth ≤ size := by
  unfold turning
  split <;> omega

theorem turning_pos {size : Nat} (some : 0 < size) (depth : Nat) : 0 < turning size depth := by
  unfold turning
  split <;> omega

variable {abyss : Abyss} {depth : Nat}

theorem length_take_turning (abyss : Abyss) (depth : Nat) :
    (abyss.topFirst.take (turning abyss.size depth)).length = turning abyss.size depth :=
  List.length_take_of_le (turning_le abyss.size depth)

theorem turned_zero (abyss : Abyss) (depth : Nat) : abyss.turned depth 0 = abyss := by
  rw [turned, List.rotate_zero, List.take_append_drop]

theorem turned_turning (abyss : Abyss) (depth : Nat) :
    abyss.turned depth (turning abyss.size depth) = abyss := by
  have back := List.rotate_length (abyss.topFirst.take (turning abyss.size depth))
  rw [length_take_turning] at back
  rw [turned, back, List.take_append_drop]

@[simp] theorem size_turned (abyss : Abyss) (depth times : Nat) :
    (abyss.turned depth times).size = abyss.size := by
  rw [turned, size, List.length_append, List.length_rotate, ← List.length_append,
    List.take_append_drop, size]

theorem turned_turned (abyss : Abyss) (depth first second : Nat) :
    (abyss.turned depth first).turned depth second = abyss.turned depth (first + second) := by
  have length : ((abyss.topFirst.take (turning abyss.size depth)).rotate first).length =
      turning abyss.size depth := by
    rw [List.length_rotate, length_take_turning]
  rw [turned, size_turned, turned, List.take_left' length, List.drop_left' length,
    List.rotate_rotate, turned]

theorem turned_one {top : Bubble} {below : List Bubble} {others : Nat}
    (turns : turning (size ⟨top :: below⟩) depth = others + 1) :
    turned ⟨top :: below⟩ depth 1 = ⟨below.take others ++ top :: below.drop others⟩ := by
  rw [turned, turns, List.take_succ_cons, List.drop_succ_cons, List.rotate_cons_succ,
    List.rotate_zero, List.append_assoc]
  rfl

theorem submerge_eq_turned (some : 0 < abyss.size) (depth : Nat) :
    abyss.submerge depth = .ok (abyss.turned depth 1) := by
  obtain ⟨_ | ⟨top, below⟩⟩ := abyss
  · contradiction
  · obtain ⟨others, turns⟩ := Nat.exists_eq_add_of_le' (turning_pos some depth)
    rw [submerge_cons, turned_one turns]
    change turning (below.length + 1) depth = others + 1 at turns
    by_cases bottom : depth = 0
    · rw [turning, if_pos (.inl bottom), Nat.add_right_cancel_iff] at turns
      rw [if_pos bottom, ← turns, List.take_length, List.drop_length]
    · rw [if_neg bottom]
      by_cases past : below.length + 1 ≤ depth
      · rw [turning, if_pos (.inr past), Nat.add_right_cancel_iff] at turns
        have all : below.length ≤ depth := Nat.le_of_succ_le past
        rw [List.take_of_length_le all, List.drop_of_length_le all, ← turns, List.take_length,
          List.drop_length]
      · rw [turning, if_neg (not_or.2 ⟨bottom, past⟩), Nat.add_right_cancel_iff] at turns
        rw [turns]

theorem foldlM_submerge (some : 0 < abyss.size) (depth times : Nat) :
    (List.replicate times depth).foldlM submerge abyss = .ok (abyss.turned depth times) := by
  induction times generalizing abyss with
  | zero =>
    rw [turned_zero]
    rfl
  | succ times ih =>
    have later : 0 < (abyss.turned depth 1).size := by rwa [size_turned]
    rw [List.replicate_succ, List.foldlM_cons, submerge_eq_turned some, Nat.add_comm times 1,
      ← turned_turned]
    exact ih later

/-- The top bubble sinks below the others that turn, which keep their order, and nothing happens
below them. As often as there are bubbles that turn, and the abyss is as it was. -/
theorem submerge_rotates (some : 0 < abyss.size) (depth : Nat) :
    (∃ top others below, abyss.topFirst = top :: (others ++ below) ∧
      others.length + 1 = turning abyss.size depth ∧
      below.length = abyss.size - turning abyss.size depth ∧
      abyss.submerge depth = .ok ⟨others ++ top :: below⟩) ∧
    (List.replicate (turning abyss.size depth) depth).foldlM submerge abyss = .ok abyss := by
  constructor
  · obtain ⟨_ | ⟨top, rest⟩⟩ := abyss
    · contradiction
    · obtain ⟨others, turns⟩ := Nat.exists_eq_add_of_le' (turning_pos some depth)
      have within : others + 1 ≤ rest.length + 1 := turns ▸ turning_le _ depth
      refine ⟨top, rest.take others, rest.drop others, ?_, ?_, ?_, ?_⟩
      · rw [List.take_append_drop]
      · rw [List.length_take_of_le (Nat.le_of_succ_le_succ within), turns]
      · rw [List.length_drop, turns, size, List.length_cons, Nat.add_sub_add_right]
      · rw [submerge_eq_turned some, turned_one turns]
  · rw [foldlM_submerge some, turned_turning]

theorem submerge_rotates_three :
    submerge ⟨[.scalar 4, .scalar 3, .scalar 2, .scalar 1]⟩ 2 =
      .ok ⟨[.scalar 3, .scalar 2, .scalar 4, .scalar 1]⟩ ∧
    [2, 2, 2].foldlM submerge ⟨[.scalar 4, .scalar 3, .scalar 2, .scalar 1]⟩ =
      .ok ⟨[.scalar 4, .scalar 3, .scalar 2, .scalar 1]⟩ := by
  have some : 0 < size ⟨[.scalar 4, .scalar 3, .scalar 2, .scalar 1]⟩ := by decide
  exact ⟨rfl, (submerge_rotates some 2).2⟩

end AwaLang.Abyss
