import AwaLang.Proofs.Bubble.Broadcast
import AwaLang.Proofs.Bubble.Closed
import AwaLang.Proofs.Bubble.Scalars

namespace AwaLang

namespace Bubble

/-- Every double in a bubble, at every depth, has two elements or more. -/
inductive Normal : Bubble → Prop
  | scalar (n : Int) : Normal (scalar n)
  | double {bs : List Bubble} (several : 2 ≤ bs.length) (parts : ∀ b ∈ bs, Normal b) :
      Normal (double bs)

theorem ofList_of_two_le {bs : List Bubble} (several : 2 ≤ bs.length) : ofList bs = double bs := by
  match bs, several with
  | _ :: _ :: _, _ => rfl

theorem normal_ofList {bs : List Bubble} (parts : ∀ b ∈ bs, b.Normal) : (ofList bs).Normal := by
  cases bs with
  | nil => exact .scalar 0
  | cons b rest =>
    cases rest with
    | nil => exact parts b List.mem_cons_self
    | cons c rest =>
      have several : 2 ≤ (b :: c :: rest).length := by simp
      exact .double several parts

theorem Normal.of_mem_toList {b part : Bubble} (normal : b.Normal) (member : part ∈ b.toList) :
    part.Normal := by
  cases normal with
  | scalar n =>
    have same : part = .scalar n := by simpa [toList] using member
    exact same ▸ .scalar n
  | double several parts => exact parts part member

theorem Normal.of_mem_released {b part : Bubble} (normal : b.Normal)
    (member : part ∈ b.released) : part.Normal := by
  cases normal with
  | scalar n => simp [released] at member
  | double several parts => exact parts part member

theorem Normal.length_toList_pos {b : Bubble} (normal : b.Normal) : 0 < b.toList.length := by
  cases normal with
  | scalar n => simp [toList]
  | double several parts => exact Nat.lt_of_lt_of_le Nat.zero_lt_two several

/-- A merged bubble never collapses, and need not: each side brings at least one element. -/
theorem Normal.merge {b below : Bubble} (normal : b.Normal) (deep : below.Normal) :
    (b.merge below).Normal := by
  have first := normal.length_toList_pos
  have second := deep.length_toList_pos
  have several : 2 ≤ (below.toList ++ b.toList).length := by
    rw [List.length_append]
    omega
  apply Normal.double several
  intro part member
  rcases List.mem_append.1 member with lower | upper
  · exact deep.of_mem_toList lower
  · exact normal.of_mem_toList upper

theorem closed_normal : Closed Normal where
  scalar := .scalar
  released := Normal.of_mem_released
  gathered := by
    intro bs normal
    apply normal_ofList
    intro part member
    obtain ⟨b, gathered, inside⟩ := List.mem_flatMap.1 member
    exact (normal b gathered).of_mem_toList inside
  merged := Normal.merge

theorem normal_ofInts (values : List Int) : (ofInts values).Normal := closed_normal.ofInts values

theorem normal_zipLeaves {ε : Type} {f : Int → Int → Except ε Bubble}
    (leaves : ∀ x y part, f x y = .ok part → part.Normal) {a b result : Bubble}
    (zipped : zipLeaves f a b = .ok result) : result.Normal := by
  induction a, b using meeting_induction generalizing result with
  | scalars x y => exact leaves x y result zipped
  | apart a b compound ih =>
    rw [zipLeaves_apart f compound] at zipped
    obtain ⟨parts, done, rfl⟩ := exists_of_map_eq_ok zipped
    have each : ∀ part ∈ parts, part.Normal :=
      forall_of_mapM_eq_ok done fun p member part made => ih p member made
    exact normal_ofList each

theorem normal_onScalars {op : ArithmeticOp} {x y : Int} {part : Bubble}
    (made : onScalars op x y = .ok part) : part.Normal := by
  rw [onScalars_eq_ofInts made]
  exact normal_ofInts _

/-- The operands need not be normal: every double of the result is taken up anew. -/
theorem normal_combine {op : ArithmeticOp} {top below result : Bubble}
    (combined : top.combine op below = .ok result) : result.Normal :=
  normal_zipLeaves (fun _ _ _ => normal_onScalars) combined

end Bubble

end AwaLang
