import AwaLang.Proofs.Abyss.Surround

/-!
Operations on the upper part of an abyss. With more bubbles below, an operation does to those above
what it does to them alone, if they are enough for it. Sinking is left out: a bubble that sinks to
the bottom passes all bubbles that there are.
-/

namespace AwaLang.Abyss

def above (abyss base : Abyss) : Abyss := ⟨abyss.topFirst ++ base.topFirst⟩

variable {abyss after rest : Abyss} {a b : Bubble}

theorem size_above (abyss base : Abyss) : (abyss.above base).size = abyss.size + base.size :=
  List.length_append

theorem pop_above (popped : abyss.pop = .ok (a, rest)) (base : Abyss) :
    (abyss.above base).pop = .ok (a, rest.above base) := by
  rw [above, topFirst_of_pop popped]
  rfl

theorem popTwo_above (popped : abyss.popTwo = .ok (a, b, rest)) (base : Abyss) :
    (abyss.above base).popTwo = .ok (a, b, rest.above base) := by
  rw [above, topFirst_of_popTwo popped]
  rfl

theorem peek_above (seen : abyss.peek = .ok a) (base : Abyss) :
    (abyss.above base).peek = .ok a := by
  obtain ⟨_ | ⟨top, below⟩⟩ := abyss
  · contradiction
  · exact seen

theorem peekTwo_above (seen : abyss.peekTwo = .ok (a, b)) (base : Abyss) :
    (abyss.above base).peekTwo = .ok (a, b) := by
  obtain ⟨_ | ⟨top, _ | ⟨second, below⟩⟩⟩ := abyss
  · contradiction
  · contradiction
  · exact seen

theorem split_above (done : abyss.split = .ok after) (base : Abyss) :
    (abyss.above base).split = .ok (after.above base) := by
  obtain ⟨top, below, shape, result⟩ := topFirst_of_split done
  rw [above, shape, above, result, List.append_assoc]
  rfl

theorem duplicate_above (done : abyss.duplicate = .ok after) (base : Abyss) :
    (abyss.above base).duplicate = .ok (after.above base) := by
  obtain ⟨top, below, shape, result⟩ := topFirst_of_duplicate done
  rw [above, shape, above, result]
  rfl

theorem surround_above {count : Nat} (done : abyss.surround count = .ok after) (base : Abyss) :
    (abyss.above base).surround count = .ok (after.above base) := by
  obtain ⟨enough, result⟩ := topFirst_of_surround done
  have more : count ≤ (abyss.above base).size :=
    Nat.le_trans enough (size_above abyss base ▸ Nat.le_add_right abyss.size base.size)
  rw [surround_of_le more, upper, above, List.take_append_of_le_length enough,
    List.drop_append_of_le_length enough, above, result]
  rfl

theorem merge_above (done : abyss.merge = .ok after) (base : Abyss) :
    (abyss.above base).merge = .ok (after.above base) := by
  obtain ⟨top, second, below, shape, result⟩ := topFirst_of_merge done
  rw [above, shape, above, result]
  rfl

theorem count_above (done : abyss.count = .ok after) (base : Abyss) :
    (abyss.above base).count = .ok (after.above base) := by
  obtain ⟨top, below, shape, result⟩ := topFirst_of_count done
  rw [above, shape, above, result]
  rfl

end AwaLang.Abyss
