import AwaLang.Bubble.Arithmetic
import AwaLang.Proofs.Except
import Mathlib.Data.List.Zip

/-!
How two bubbles meet. Unless both are scalars, each is taken apart into partners one level down, so
that all that is said of arithmetic on bubbles has two cases: two scalars, and partners.
-/

namespace AwaLang

namespace Bubble

/-- The bubbles that meet when a bubble that is no scalar is taken apart: a scalar stays whole
beside every element of a double, and two doubles go element by element up to the shorter. -/
def partners : Bubble → Bubble → List (Bubble × Bubble)
  | scalar _, scalar _ => []
  | scalar x, double ys => ys.map (scalar x, ·)
  | double xs, scalar y => xs.map (·, scalar y)
  | double xs, double ys => xs.zip ys

variable {a b : Bubble} {p : Bubble × Bubble}

theorem sizeOf_lt_of_mem_partners (member : p ∈ a.partners b) :
    sizeOf p.1 + sizeOf p.2 < sizeOf a + sizeOf b := by
  cases a with
  | scalar x =>
    cases b with
    | scalar y => simp [partners] at member
    | double ys =>
      obtain ⟨y, inside, rfl⟩ := List.mem_map.1 member
      have smaller := List.sizeOf_lt_of_mem inside
      simp only [double.sizeOf_spec]
      omega
  | double xs =>
    cases b with
    | scalar y =>
      obtain ⟨x, inside, rfl⟩ := List.mem_map.1 member
      have smaller := List.sizeOf_lt_of_mem inside
      simp only [double.sizeOf_spec]
      omega
    | double ys =>
      have left := List.sizeOf_lt_of_mem (List.of_mem_zip member).1
      have right := List.sizeOf_lt_of_mem (List.of_mem_zip member).2
      simp only [double.sizeOf_spec]
      omega

theorem mem_toList_of_mem_partners (member : p ∈ a.partners b) :
    p.1 ∈ a.toList ∧ p.2 ∈ b.toList := by
  cases a with
  | scalar x =>
    cases b with
    | scalar y => simp [partners] at member
    | double ys =>
      obtain ⟨y, inside, rfl⟩ := List.mem_map.1 member
      exact ⟨List.mem_singleton_self _, inside⟩
  | double xs =>
    cases b with
    | scalar y =>
      obtain ⟨x, inside, rfl⟩ := List.mem_map.1 member
      exact ⟨inside, List.mem_singleton_self _⟩
    | double ys => exact List.of_mem_zip member

theorem le_length_partners {count : Nat} (compound : (a.isDouble || b.isDouble) = true)
    (left : ∀ xs, a = double xs → count ≤ xs.length)
    (right : ∀ ys, b = double ys → count ≤ ys.length) : count ≤ (a.partners b).length := by
  cases a with
  | scalar x =>
    cases b with
    | scalar y => simp [isDouble] at compound
    | double ys => simpa [partners] using right ys rfl
  | double xs =>
    cases b with
    | scalar y => simpa [partners] using left xs rfl
    | double ys =>
      rw [partners, List.length_zip]
      exact Nat.le_min.2 ⟨left xs rfl, right ys rfl⟩

/-- What holds of scalars, and of two bubbles if it holds of all their partners, holds of any two.
-/
theorem meeting_induction {motive : Bubble → Bubble → Prop}
    (scalars : ∀ x y, motive (scalar x) (scalar y))
    (apart : ∀ a b, (a.isDouble || b.isDouble) = true →
      (∀ p ∈ a.partners b, motive p.1 p.2) → motive a b)
    (a b : Bubble) : motive a b := by
  cases compound : a.isDouble || b.isDouble with
  | true =>
    apply apart a b compound
    intro p member
    exact meeting_induction scalars apart p.1 p.2
  | false =>
    cases a with
    | double xs => simp [isDouble] at compound
    | scalar x =>
      cases b with
      | double ys => simp [isDouble] at compound
      | scalar y => exact scalars x y
termination_by sizeOf a + sizeOf b
decreasing_by exact sizeOf_lt_of_mem_partners member

theorem partners_swap (a b : Bubble) : b.partners a = (a.partners b).map Prod.swap := by
  cases a <;> cases b <;> simp [partners, List.zip_swap]

section Leaves

variable {ε : Type}

theorem mapLeavesAll_eq_mapM (f : Int → Except ε Bubble) (bs : List Bubble) :
    mapLeavesAll f bs = bs.mapM (mapLeaves f) := by
  induction bs with
  | nil => rfl
  | cons b bs ih => rw [mapLeavesAll, ih, List.mapM_cons]

theorem zipLeavesAll_eq_mapM (f : Int → Int → Except ε Bubble) (xs ys : List Bubble) :
    zipLeavesAll f xs ys = (xs.zip ys).mapM fun p => zipLeaves f p.1 p.2 := by
  induction xs generalizing ys with
  | nil => cases ys <;> rfl
  | cons x xs ih =>
    cases ys with
    | nil => rfl
    | cons y ys => rw [zipLeavesAll, ih, List.zip_cons_cons, List.mapM_cons]

variable (f : Int → Int → Except ε Bubble)

theorem zipLeaves_scalar_right (a : Bubble) (y : Int) :
    zipLeaves f a (scalar y) = a.mapLeaves (f · y) := by
  cases a <;> rfl

theorem zipLeaves_apart (compound : (a.isDouble || b.isDouble) = true) :
    zipLeaves f a b = ((a.partners b).mapM fun p => zipLeaves f p.1 p.2).map ofList := by
  cases a with
  | scalar x =>
    cases b with
    | scalar y => simp [isDouble] at compound
    | double ys =>
      rw [zipLeaves, mapLeaves, mapLeavesAll_eq_mapM, partners, List.mapM_map]
      rfl
  | double xs =>
    cases b with
    | scalar y =>
      rw [zipLeaves, mapLeaves, mapLeavesAll_eq_mapM, partners, List.mapM_map]
      simp only [Function.comp_def, zipLeaves_scalar_right]
    | double ys => rw [zipLeaves, zipLeavesAll_eq_mapM, partners]

theorem zipLeaves_swap (a b : Bubble) :
    zipLeaves (fun x y => f y x) b a = zipLeaves f a b := by
  induction a, b using meeting_induction with
  | scalars x y => rfl
  | apart a b compound ih =>
    have other : (b.isDouble || a.isDouble) = true := by rw [Bool.or_comm, compound]
    rw [zipLeaves_apart f compound, zipLeaves_apart _ other, partners_swap a b, List.mapM_map]
    exact congrArg (Except.map ofList) (mapM_congr ih)

end Leaves

end Bubble

end AwaLang
