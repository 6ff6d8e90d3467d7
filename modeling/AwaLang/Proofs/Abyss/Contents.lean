import AwaLang.Proofs.Abyss.Operations
import AwaLang.Proofs.Bubble.Closed

namespace AwaLang.Abyss

def All (P : Bubble → Prop) (abyss : Abyss) : Prop := ∀ b ∈ abyss.topFirst, P b

variable {P : Bubble → Prop} {abyss after rest : Abyss} {a b : Bubble}

theorem all_empty (P : Bubble → Prop) : All P .empty := List.forall_mem_nil P

theorem All.push (held : abyss.All P) (top : P b) : (abyss.push b).All P :=
  List.forall_mem_cons.2 ⟨top, held⟩

theorem All.of_topFirst_eq_cons {below : List Bubble} (held : abyss.All P)
    (shape : abyss.topFirst = b :: below) : P b ∧ ∀ c ∈ below, P c := by
  rw [All, shape] at held
  exact List.forall_mem_cons.1 held

theorem All.of_pop (held : abyss.All P) (popped : abyss.pop = .ok (b, rest)) : rest.All P :=
  (held.of_topFirst_eq_cons (topFirst_of_pop popped)).2

theorem All.of_popTwo (held : abyss.All P) (popped : abyss.popTwo = .ok (a, b, rest)) :
    P a ∧ P b ∧ rest.All P := by
  obtain ⟨top, below⟩ := held.of_topFirst_eq_cons (topFirst_of_popTwo popped)
  exact ⟨top, List.forall_mem_cons.1 below⟩

theorem All.submerge {depth : Nat} (held : abyss.All P)
    (done : abyss.submerge depth = .ok after) : after.All P := by
  obtain ⟨top, below, shape, result⟩ := topFirst_of_submerge done
  obtain ⟨first, others⟩ := held.of_topFirst_eq_cons shape
  intro c member
  have among : c = top ∨ c ∈ below := by
    rw [result] at member
    split at member
    · simp only [List.mem_append, List.mem_singleton] at member
      exact member.symm
    · simp only [List.mem_append, List.mem_cons] at member
      rcases member with above | same | deep
      · exact .inr (List.mem_of_mem_take above)
      · exact .inl same
      · exact .inr (List.mem_of_mem_drop deep)
  rcases among with rfl | inside
  · exact first
  · exact others c inside

theorem All.duplicate (held : abyss.All P) (done : abyss.duplicate = .ok after) : after.All P := by
  obtain ⟨top, below, shape, result⟩ := topFirst_of_duplicate done
  obtain ⟨first, others⟩ := held.of_topFirst_eq_cons shape
  rw [All, result]
  simp only [List.forall_mem_cons]
  exact ⟨first, first, others⟩

section Closed

variable (closed : Bubble.Closed P)

include closed

theorem All.split (held : abyss.All P) (done : abyss.split = .ok after) : after.All P := by
  obtain ⟨top, below, shape, result⟩ := topFirst_of_split done
  obtain ⟨first, others⟩ := held.of_topFirst_eq_cons shape
  intro c member
  rw [result, List.mem_append, List.mem_reverse] at member
  rcases member with released | deep
  · exact closed.released first released
  · exact others c deep

theorem All.surround {count : Nat} (held : abyss.All P)
    (done : abyss.surround count = .ok after) : after.All P := by
  obtain ⟨-, result⟩ := topFirst_of_surround done
  rw [All, result, List.forall_mem_cons]
  constructor
  · apply closed.gathered
    intro c member
    exact held c (List.mem_of_mem_take (List.mem_reverse.1 member))
  · intro c member
    exact held c (List.mem_of_mem_drop member)

theorem All.merge (held : abyss.All P) (done : abyss.merge = .ok after) : after.All P := by
  obtain ⟨top, second, below, shape, result⟩ := topFirst_of_merge done
  obtain ⟨first, others⟩ := held.of_topFirst_eq_cons shape
  rw [List.forall_mem_cons] at others
  rw [All, result, List.forall_mem_cons]
  exact ⟨closed.merged first others.1, others.2⟩

theorem All.count (held : abyss.All P) (done : abyss.count = .ok after) : after.All P := by
  obtain ⟨top, below, shape, result⟩ := topFirst_of_count done
  obtain ⟨first, others⟩ := held.of_topFirst_eq_cons shape
  rw [All, result]
  simp only [List.forall_mem_cons]
  exact ⟨closed.scalar top.size, first, others⟩

end Closed

end AwaLang.Abyss
