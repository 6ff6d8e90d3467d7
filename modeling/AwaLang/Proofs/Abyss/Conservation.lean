import AwaLang.Proofs.Abyss.Rotation
import AwaLang.Proofs.Abyss.Surround

namespace AwaLang.Abyss

def values (abyss : Abyss) : List Int := abyss.bottomUp.flatMap Bubble.flatten

variable {abyss : Abyss}

@[simp] theorem values_push (abyss : Abyss) (b : Bubble) :
    (abyss.push b).values = abyss.values ++ b.flatten := by
  rw [values, bottomUp_push, List.flatMap_append, List.flatMap_singleton, values]

theorem values_append (upper below : List Bubble) :
    values ⟨upper ++ below⟩ = values ⟨below⟩ ++ upper.reverse.flatMap Bubble.flatten := by
  rw [values, bottomUp, List.reverse_append, List.flatMap_append, values, bottomUp]

theorem values_eq_drop_append_upper (abyss : Abyss) (count : Nat) :
    abyss.values =
      values ⟨abyss.topFirst.drop count⟩ ++ (abyss.upper count).flatMap Bubble.flatten := by
  rw [upper, ← values_append, List.take_append_drop]

theorem flatMap_flatten_flatMap_toList (bs : List Bubble) :
    (bs.flatMap Bubble.toList).flatMap Bubble.flatten = bs.flatMap Bubble.flatten := by
  rw [List.flatMap_assoc]
  simp only [Bubble.flatten_toList]

theorem values_merge (several : 2 ≤ abyss.size) :
    ∃ after, abyss.merge = .ok after ∧ after.values = abyss.values := by
  obtain ⟨_ | ⟨a, _ | ⟨b, below⟩⟩⟩ := abyss
  · contradiction
  · simp [size] at several
  · refine ⟨push ⟨below⟩ (a.merge b), rfl, ?_⟩
    change _ = ((push ⟨below⟩ b).push a).values
    rw [values_push, values_push, values_push, Bubble.flatten_merge, List.append_assoc]

/-- An empty double has no integer, but all alone it would be taken up as a zero. -/
theorem values_surround {count : Nat} (some : 1 ≤ count) (enough : count ≤ abyss.size)
    (filled : ∀ b ∈ abyss.topFirst, b ≠ .double []) :
    ∃ after, abyss.surround count = .ok after ∧ after.values = abyss.values := by
  have present : (abyss.upper count).flatMap Bubble.toList ≠ [] := by
    have each : ∀ b ∈ abyss.upper count, b ≠ .double [] := by
      intro b member
      exact filled b (List.mem_of_mem_take (List.mem_reverse.1 member))
    have elements := length_le_flatMap_toList each
    rw [length_upper enough] at elements
    exact List.length_pos_iff.1 (Nat.lt_of_lt_of_le some elements)
  refine ⟨_, surround_of_le enough, ?_⟩
  rw [values_push, Bubble.flatten_ofList _ present, flatMap_flatten_flatMap_toList,
    ← values_eq_drop_append_upper]

theorem values_surround_zero (abyss : Abyss) :
    ∃ after, abyss.surround 0 = .ok after ∧ after.values = abyss.values ++ [0] :=
  ⟨_, surround_of_le (Nat.zero_le abyss.size), values_push abyss (.scalar 0)⟩

theorem values_split_double (elements below : List Bubble) :
    ∃ after, split ⟨.double elements :: below⟩ = .ok after ∧
      after.values = values ⟨.double elements :: below⟩ := by
  refine ⟨⟨elements.reverse ++ below⟩, rfl, ?_⟩
  change _ = (push ⟨below⟩ (.double elements)).values
  rw [values_push, values_append, List.reverse_reverse, Bubble.flatten,
    Bubble.flattenAll_eq_flatMap]

theorem values_split_scalar (n : Int) (below : List Bubble) :
    ∃ after, split ⟨.scalar n :: below⟩ = .ok after ∧
      values ⟨.scalar n :: below⟩ = after.values ++ [n] :=
  ⟨⟨below⟩, rfl, values_push ⟨below⟩ (.scalar n)⟩

theorem perm_submerge (some : 0 < abyss.size) (depth : Nat) :
    ∃ after, abyss.submerge depth = .ok after ∧ after.bottomUp.Perm abyss.bottomUp := by
  refine ⟨_, submerge_eq_turned some depth, ?_⟩
  have upper := (List.rotate_perm (abyss.topFirst.take (turning abyss.size depth)) 1).append_right
    (abyss.topFirst.drop (turning abyss.size depth))
  rw [List.take_append_drop] at upper
  exact (List.reverse_perm _).trans (upper.trans (List.reverse_perm _).symm)

/-- Merging and surrounding leave the sequence of all integers as it is, and so does bursting a
double, while bursting a scalar takes the last integer away. Sinking only permutes the bubbles. The
other operations add something at the end: duplicating the integers of the top bubble, counting the
number of its elements, and surrounding nothing a zero. Empty doubles are shut out only as bubbles
of their own; inside of others they do no harm. -/
theorem values_conserved (filled : ∀ b ∈ abyss.topFirst, b ≠ .double []) :
    (2 ≤ abyss.size → ∃ after, abyss.merge = .ok after ∧ after.values = abyss.values) ∧
    (∀ count, 1 ≤ count → count ≤ abyss.size →
      ∃ after, abyss.surround count = .ok after ∧ after.values = abyss.values) ∧
    (∃ after, abyss.surround 0 = .ok after ∧ after.values = abyss.values ++ [0]) ∧
    ∀ top below, abyss.topFirst = top :: below →
      (∀ elements, top = .double elements →
        ∃ after, abyss.split = .ok after ∧ after.values = abyss.values) ∧
      (∀ n, top = .scalar n →
        ∃ after, abyss.split = .ok after ∧ abyss.values = after.values ++ [n]) ∧
      (∀ depth, ∃ after, abyss.submerge depth = .ok after ∧
        after.bottomUp.Perm abyss.bottomUp) ∧
      (∃ after, abyss.duplicate = .ok after ∧ after.values = abyss.values ++ top.flatten) ∧
      ∃ after, abyss.count = .ok after ∧
        after.values = abyss.values ++ [match top with
          | .scalar _ => 0
          | .double elements => (elements.length : Int)] := by
  refine ⟨values_merge, fun count some enough => values_surround some enough filled,
    values_surround_zero abyss, ?_⟩
  intro top below shape
  obtain rfl : abyss = ⟨top :: below⟩ := congrArg Abyss.mk shape
  refine ⟨?_, ?_, ?_, ?_, ?_⟩
  · rintro elements rfl
    exact values_split_double elements below
  · rintro n rfl
    exact values_split_scalar n below
  · exact perm_submerge (Nat.succ_pos below.length)
  · exact ⟨_, rfl, values_push ⟨top :: below⟩ top⟩
  · refine ⟨_, rfl, ?_⟩
    rw [values_push]
    cases top <;> rfl

/-- A double with a double inside, a scalar and a pair. -/
theorem values_conserved_nested :
    values ⟨[.double [.scalar 4, .double [.scalar 5, .scalar 6]], .scalar 3,
      .double [.scalar 1, .scalar 2]]⟩ = [1, 2, 3, 4, 5, 6] ∧
    (∃ after, surround ⟨[.double [.scalar 4, .double [.scalar 5, .scalar 6]], .scalar 3,
        .double [.scalar 1, .scalar 2]]⟩ 3 = .ok after ∧ after.values = [1, 2, 3, 4, 5, 6]) ∧
    ∃ after, count ⟨[.double [.scalar 4, .double [.scalar 5, .scalar 6]], .scalar 3,
      .double [.scalar 1, .scalar 2]]⟩ = .ok after ∧ after.values = [1, 2, 3, 4, 5, 6, 2] := by
  have filled : ∀ b ∈ [.double [.scalar 4, .double [.scalar 5, .scalar 6]], .scalar 3,
      .double [.scalar 1, .scalar 2]], b ≠ Bubble.double [] := by
    decide
  obtain ⟨-, surrounds, -, tops⟩ := @values_conserved ⟨_⟩ filled
  obtain ⟨-, -, -, -, counts⟩ := tops _ _ rfl
  exact ⟨rfl, surrounds 3 (by decide) (by decide), counts⟩

end AwaLang.Abyss
