import AwaLang.Proofs.Bubble.Broadcast
import AwaLang.Proofs.Bubble.Scalars

/-!
Arithmetic on the leaves. The integers of two bubbles that meet, in their order, decide everything:
whether an operation succeeds, what it fails of, and which integers the result holds.
-/

namespace AwaLang

namespace Bubble

mutual

/-- The integers that meet: a scalar meets all integers of the other bubble, and two doubles meet
element by element as long as both have one. -/
def meetings : Bubble → Bubble → List (Int × Int)
  | scalar x, b => b.flatten.map (x, ·)
  | double xs, scalar y => (double xs).flatten.map (·, y)
  | double xs, double ys => meetingsAll xs ys

def meetingsAll : List Bubble → List Bubble → List (Int × Int)
  | x :: xs, y :: ys => x.meetings y ++ meetingsAll xs ys
  | [], _ => []
  | _ :: _, [] => []

end

inductive Filled : Bubble → Prop
  | scalar (n : Int) : Filled (scalar n)
  | double {bs : List Bubble} (some : bs ≠ []) (parts : ∀ b ∈ bs, Filled b) : Filled (double bs)

@[simp] theorem filled_scalar (n : Int) : Filled (.scalar n) := .scalar n

@[simp] theorem filled_double_iff {bs : List Bubble} :
    Filled (.double bs) ↔ bs ≠ [] ∧ ∀ b ∈ bs, b.Filled := by
  constructor
  · rintro (_ | ⟨some, parts⟩)
    exact ⟨some, parts⟩
  · rintro ⟨some, parts⟩
    exact .double some parts

variable {a b : Bubble}

theorem meetings_scalar_right (a : Bubble) (y : Int) :
    a.meetings (scalar y) = a.flatten.map (·, y) := by
  cases a <;> rfl

theorem meetingsAll_eq_flatMap (xs ys : List Bubble) :
    meetingsAll xs ys = (xs.zip ys).flatMap fun p => p.1.meetings p.2 := by
  induction xs generalizing ys with
  | nil => cases ys <;> rfl
  | cons x xs ih =>
    cases ys with
    | nil => rfl
    | cons y ys => rw [meetingsAll, ih, List.zip_cons_cons, List.flatMap_cons]

theorem meetings_apart (compound : (a.isDouble || b.isDouble) = true) :
    a.meetings b = (a.partners b).flatMap fun p => p.1.meetings p.2 := by
  cases a with
  | scalar x =>
    cases b with
    | scalar y => simp [isDouble] at compound
    | double ys =>
      rw [meetings, flatten, flattenAll_eq_flatMap, List.map_flatMap, partners, List.flatMap_map]
      rfl
  | double xs =>
    cases b with
    | scalar y =>
      rw [meetings, flatten, flattenAll_eq_flatMap, List.map_flatMap, partners, List.flatMap_map]
      simp only [meetings_scalar_right]
    | double ys => rw [meetings, meetingsAll_eq_flatMap, partners]

theorem findSome?_eq_flatMap {α β γ : Type} {f : α → List β} {g : α → Option γ} {h : β → Option γ}
    {items : List α} (each : ∀ a ∈ items, g a = (f a).findSome? h) :
    items.findSome? g = (items.flatMap f).findSome? h := by
  induction items with
  | nil => rfl
  | cons first rest ih =>
    rw [List.forall_mem_cons] at each
    rw [List.flatMap_cons, List.findSome?_append, ← ih each.2, ← each.1, List.findSome?_cons]
    cases g first <;> rfl

section Leaves

variable {ε : Type} {f : Int → Int → Except ε Bubble}

theorem faultOf_zipLeaves (f : Int → Int → Except ε Bubble) (a b : Bubble) :
    faultOf (zipLeaves f a b) = (a.meetings b).findSome? fun p => faultOf (f p.1 p.2) := by
  induction a, b using meeting_induction with
  | scalars x y =>
    rw [zipLeaves, mapLeaves, meetings, flatten, List.map_singleton, List.findSome?_singleton]
  | apart a b compound ih =>
    rw [zipLeaves_apart f compound, faultOf_map, faultOf_mapM, meetings_apart compound]
    exact findSome?_eq_flatMap ih

theorem exists_zipLeaves_eq_ok_iff :
    (∃ result, zipLeaves f a b = .ok result) ↔
      ∀ p ∈ a.meetings b, ∃ part, f p.1 p.2 = .ok part := by
  simp only [← faultOf_eq_none_iff]
  rw [faultOf_zipLeaves, List.findSome?_eq_none_iff]

theorem zipLeaves_eq_error_iff {fault : ε} :
    zipLeaves f a b = .error fault ↔
      ∃ before p after, a.meetings b = before ++ p :: after ∧ f p.1 p.2 = .error fault ∧
        ∀ q ∈ before, ∃ part, f q.1 q.2 = .ok part := by
  simp only [← faultOf_eq_some_iff, ← faultOf_eq_none_iff]
  rw [faultOf_zipLeaves, List.findSome?_eq_some_iff]

theorem Filled.of_mem_toList {part : Bubble} (filled : a.Filled) (member : part ∈ a.toList) :
    part.Filled := by
  cases filled with
  | scalar n =>
    have same : part = .scalar n := by simpa [toList] using member
    exact same ▸ .scalar n
  | double some parts => exact parts part member

theorem Filled.length_partners_pos (filled : a.Filled) (deep : b.Filled)
    (compound : (a.isDouble || b.isDouble) = true) : 0 < (a.partners b).length := by
  apply le_length_partners compound
  · rintro xs rfl
    exact List.length_pos_iff.2 (filled_double_iff.1 filled).1
  · rintro ys rfl
    exact List.length_pos_iff.2 (filled_double_iff.1 deep).1

/-- Without empty doubles nothing is added to the integers of the parts, nor are any lost. -/
theorem flatten_zipLeaves {integers : Int → Int → List Int}
    (leaves : ∀ x y part, f x y = .ok part → part.flatten = integers x y)
    (filled : a.Filled) (deep : b.Filled) {result : Bubble}
    (zipped : zipLeaves f a b = .ok result) :
    result.flatten = (a.meetings b).flatMap fun p => integers p.1 p.2 := by
  induction a, b using meeting_induction generalizing result with
  | scalars x y =>
    rw [meetings, flatten, List.map_singleton, List.flatMap_singleton]
    exact leaves x y result zipped
  | apart a b compound ih =>
    rw [zipLeaves_apart f compound] at zipped
    obtain ⟨parts, done, rfl⟩ := exists_of_map_eq_ok zipped
    have each : ∀ p ∈ a.partners b, ∀ part, zipLeaves f p.1 p.2 = .ok part →
        part.flatten = (p.1.meetings p.2).flatMap fun q => integers q.1 q.2 := by
      intro p member part made
      obtain ⟨left, right⟩ := mem_toList_of_mem_partners member
      exact ih p member (filled.of_mem_toList left) (deep.of_mem_toList right) made
    have flattened := map_eq_of_mapM_eq_ok done each
    -- Of no parts the scalar zero would be made, which no two integers gave.
    have nonempty : parts ≠ [] := by
      rw [← List.length_pos_iff, length_of_mapM_eq_ok done]
      exact filled.length_partners_pos deep compound
    rw [flatten_ofList parts nonempty, List.flatMap_def, flattened, ← List.flatMap_def,
      ← List.flatMap_assoc, ← meetings_apart compound]

end Leaves

theorem zip_take_length {α β : Type} (xs : List α) (ys : List β) :
    (xs.take ys.length).zip (ys.take xs.length) = xs.zip ys := by
  rw [@List.zip_eq_zip_take_min _ _ xs ys]
  congr 1 <;> rw [List.take_eq_take_iff] <;> omega

/-- What arithmetic on bubbles makes of their leaves. It succeeds if it does for every two integers
that meet, and else has the fault of the first two that it refuses. Elements beyond the shorter of
two doubles have no part in it. The integers of a result are those of the meetings in order, each of
them exact; sums, differences and products are refused where they leave 64 bits. -/
theorem combine_leafwise (op : ArithmeticOp) (a b : Bubble) :
    ((∃ result, a.combine op b = .ok result) ↔
      ∀ p ∈ a.meetings b, ∃ part, onScalars op p.1 p.2 = .ok part) ∧
    (∀ fault, a.combine op b = .error fault ↔
      ∃ before p after, a.meetings b = before ++ p :: after ∧
        onScalars op p.1 p.2 = .error fault ∧
        ∀ q ∈ before, ∃ part, onScalars op q.1 q.2 = .ok part) ∧
    (∀ xs ys, (double xs).combine op (double ys) =
      (double (xs.take ys.length)).combine op (double (ys.take xs.length))) ∧
    (∀ result, a.Filled → b.Filled → a.combine op b = .ok result →
      result.flatten = (a.meetings b).flatMap fun p => op.integers p.1 p.2) ∧
    (∀ x y part, onScalars op x y = .ok part → part = ofInts (op.integers x y)) ∧
    (op ≠ .div → ∀ x y fault, onScalars op x y = .error fault ↔
      fault = .overflow ∧ ∃ n ∈ op.integers x y, ¬ (-2 ^ 63 ≤ n ∧ n < 2 ^ 63)) := by
  refine ⟨exists_zipLeaves_eq_ok_iff, fun fault => zipLeaves_eq_error_iff, ?_, ?_, ?_, ?_⟩
  · intro xs ys
    rw [combine, combine, zipLeaves, zipLeaves, zipLeavesAll_eq_mapM, zipLeavesAll_eq_mapM,
      zip_take_length]
  · intro result filled deep combined
    apply flatten_zipLeaves _ filled deep combined
    intro x y part made
    exact flatten_onScalars made
  · intro x y part made
    exact onScalars_eq_ofInts made
  · intro bounded x y fault
    cases op with
    | div => contradiction
    | add | sub | mul =>
      rw [onScalars, checked_eq_error_iff, inRange_iff]
      simp only [ArithmeticOp.integers, List.mem_singleton, exists_eq_left]

/-- A double inside the shorter one, whose partner is a scalar, and a product past 64 bits. -/
theorem combine_leafwise_shorter :
    (double [.scalar 3, .double [.scalar (-2), .scalar 5]]).combine .mul
        (.double [.scalar 4, .scalar (2 ^ 60), .scalar (2 ^ 62)]) =
      .ok (.double [.scalar 12, .double [.scalar (-2 ^ 61), .scalar (5 * 2 ^ 60)]]) ∧
    [12, -2 ^ 61, 5 * 2 ^ 60] =
      [((3 : Int), (4 : Int)), (-2, 2 ^ 60), (5, 2 ^ 60)].flatMap
        (fun p => ArithmeticOp.mul.integers p.1 p.2) ∧
    onScalars .mul 3 (2 ^ 62) = .error .overflow := by
  have combined : (double [.scalar 3, .double [.scalar (-2), .scalar 5]]).combine .mul
        (.double [.scalar 4, .scalar (2 ^ 60), .scalar (2 ^ 62)]) =
      .ok (.double [.scalar 12, .double [.scalar (-2 ^ 61), .scalar (5 * 2 ^ 60)]]) := by
    rfl
  obtain ⟨-, -, -, integers, -, refused⟩ := combine_leafwise .mul
    (.double [.scalar 3, .double [.scalar (-2), .scalar 5]])
    (.double [.scalar 4, .scalar (2 ^ 60), .scalar (2 ^ 62)])
  refine ⟨combined, integers _ (by simp) (by simp) combined, ?_⟩
  rw [refused (by decide)]
  exact ⟨rfl, 3 * 2 ^ 62, by decide, by decide⟩

end Bubble

end AwaLang
