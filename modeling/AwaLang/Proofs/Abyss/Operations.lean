import AwaLang.Abyss

namespace AwaLang.Abyss

variable {abyss after rest : Abyss} {a b : Bubble} {needed : Nat}

theorem require_of_lt (short : abyss.size < needed) :
    abyss.require needed = .error ⟨needed, abyss.size⟩ := by
  apply if_pos
  exact Nat.lt_of_le_of_lt (List.length_take_le' needed abyss.topFirst) short

theorem require_of_le (enough : needed ≤ abyss.size) : abyss.require needed = .ok () := by
  apply if_neg
  rw [List.length_take_of_le enough]
  exact Nat.lt_irrefl needed

theorem surround_of_lt (short : abyss.size < needed) :
    abyss.surround needed = .error ⟨needed, abyss.size⟩ := by
  rw [surround, require_of_lt short]
  rfl

theorem submerge_cons (top : Bubble) (below : List Bubble) (depth : Nat) :
    submerge ⟨top :: below⟩ depth =
      .ok (if depth = 0 then ⟨below ++ [top]⟩
        else ⟨below.take depth ++ top :: below.drop depth⟩) := by
  simp only [submerge, pop, bind, Except.bind, pure, Except.pure]
  split <;> rfl

theorem topFirst_of_pop (popped : abyss.pop = .ok (a, rest)) :
    abyss.topFirst = a :: rest.topFirst := by
  obtain ⟨_ | ⟨top, below⟩⟩ := abyss
  · contradiction
  · simp only [pop, Except.ok.injEq, Prod.mk.injEq] at popped
    obtain ⟨rfl, rfl⟩ := popped
    rfl

theorem topFirst_of_popTwo (popped : abyss.popTwo = .ok (a, b, rest)) :
    abyss.topFirst = a :: b :: rest.topFirst := by
  obtain ⟨_ | ⟨top, _ | ⟨second, below⟩⟩⟩ := abyss
  · contradiction
  · contradiction
  · simp only [popTwo, Except.ok.injEq, Prod.mk.injEq] at popped
    obtain ⟨rfl, rfl, rfl⟩ := popped
    rfl

theorem topFirst_of_submerge {depth : Nat} (done : abyss.submerge depth = .ok after) :
    ∃ top below, abyss.topFirst = top :: below ∧
      after.topFirst =
        if depth = 0 then below ++ [top] else below.take depth ++ top :: below.drop depth := by
  obtain ⟨_ | ⟨top, below⟩⟩ := abyss
  · contradiction
  · refine ⟨top, below, rfl, ?_⟩
    rw [submerge_cons] at done
    rw [← Except.ok.inj done]
    split <;> rfl

theorem topFirst_of_split (done : abyss.split = .ok after) :
    ∃ top below, abyss.topFirst = top :: below ∧
      after.topFirst = top.released.reverse ++ below := by
  obtain ⟨_ | ⟨top, below⟩⟩ := abyss
  · contradiction
  · exact ⟨top, below, rfl, by rw [← Except.ok.inj done]⟩

theorem topFirst_of_duplicate (done : abyss.duplicate = .ok after) :
    ∃ top below, abyss.topFirst = top :: below ∧ after.topFirst = top :: top :: below := by
  obtain ⟨_ | ⟨top, below⟩⟩ := abyss
  · contradiction
  · exact ⟨top, below, rfl, by rw [← Except.ok.inj done]; rfl⟩

theorem topFirst_of_surround {count : Nat} (done : abyss.surround count = .ok after) :
    count ≤ abyss.size ∧
      after.topFirst =
        .ofList ((abyss.topFirst.take count).reverse.flatMap Bubble.toList) ::
          abyss.topFirst.drop count := by
  rcases Nat.lt_or_ge abyss.size count with short | enough
  · rw [surround_of_lt short] at done
    contradiction
  · rw [surround, require_of_le enough] at done
    exact ⟨enough, by rw [← Except.ok.inj done]; rfl⟩

theorem topFirst_of_merge (done : abyss.merge = .ok after) :
    ∃ top second below, abyss.topFirst = top :: second :: below ∧
      after.topFirst = top.merge second :: below := by
  obtain ⟨_ | ⟨top, _ | ⟨second, below⟩⟩⟩ := abyss
  · contradiction
  · contradiction
  · exact ⟨top, second, below, rfl, by rw [← Except.ok.inj done]; rfl⟩

theorem topFirst_of_count (done : abyss.count = .ok after) :
    ∃ top below, abyss.topFirst = top :: below ∧
      after.topFirst = .scalar top.size :: top :: below := by
  obtain ⟨_ | ⟨top, below⟩⟩ := abyss
  · contradiction
  · exact ⟨top, below, rfl, by rw [← Except.ok.inj done]; rfl⟩

end AwaLang.Abyss
