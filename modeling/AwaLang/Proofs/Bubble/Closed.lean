import AwaLang.Bubble.Basic

namespace AwaLang.Bubble

/-- A property that scalars have, and that is not lost in taking bubbles apart and putting them
together. -/
structure Closed (P : Bubble → Prop) : Prop where
  scalar : ∀ n, P (scalar n)
  released : ∀ {b part : Bubble}, P b → part ∈ b.released → P part
  gathered : ∀ {bs : List Bubble}, (∀ b ∈ bs, P b) → P (ofList (bs.flatMap toList))
  merged : ∀ {b below : Bubble}, P b → P below → P (b.merge below)

theorem Closed.ofInts {P : Bubble → Prop} (closed : Closed P) (values : List Int) :
    P (Bubble.ofInts values) := by
  have each : ∀ b ∈ values.map Bubble.scalar, P b := by
    intro b member
    obtain ⟨n, -, rfl⟩ := List.mem_map.1 member
    exact closed.scalar n
  have whole : (values.map Bubble.scalar).flatMap Bubble.toList = values.map Bubble.scalar := by
    rw [List.flatMap_map]
    exact List.map_eq_flatMap.symm
  have gathered := closed.gathered each
  rwa [whole] at gathered

end AwaLang.Bubble
