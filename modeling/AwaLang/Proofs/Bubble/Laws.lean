import AwaLang.Proofs.Bubble.Normal
import Mathlib.Data.Option.NAry

/-!
The laws of sums and products of bubbles. A normal bubble is told by its integers at all places, and
an operation on bubbles works place by place, so that a law of the integers is one of the bubbles.
-/

namespace AwaLang

namespace Bubble

def element? : Bubble → Nat → Option Bubble
  | scalar n, _ => some (scalar n)
  | double bs, i => bs[i]?

/-- The integer at a place, which is a path of indices from the outside in. The places below a
scalar all have its integer, since a scalar beside a double meets everything inside it. -/
def at? : Bubble → List Nat → Option Int
  | scalar n, [] => some n
  | double _, [] => none
  | b, i :: path => (b.element? i).bind (at? · path)

variable {a b c : Bubble}

@[simp] theorem at?_scalar (n : Int) (path : List Nat) : (scalar n).at? path = some n := by
  induction path with
  | nil => rfl
  | cons i path ih => exact ih

theorem at?_cons (b : Bubble) (i : Nat) (path : List Nat) :
    b.at? (i :: path) = (b.element? i).bind (at? · path) := by
  cases b <;> rfl

theorem Normal.exists_at?_eq_some (normal : a.Normal) : ∃ path n, a.at? path = some n := by
  induction normal with
  | scalar n => exact ⟨[], n, rfl⟩
  | @double bs several parts ih =>
    have inside : 0 < bs.length := Nat.lt_of_lt_of_le Nat.zero_lt_two several
    obtain ⟨path, n, found⟩ := ih bs[0] (List.getElem_mem inside)
    refine ⟨0 :: path, n, ?_⟩
    rw [at?, element?, List.getElem?_eq_getElem inside]
    exact found

theorem eq_none_of_at? {o : Option Bubble} (normal : ∀ d, o = some d → d.Normal)
    (missing : ∀ path, o.bind (at? · path) = none) : o = none := by
  cases o with
  | none => rfl
  | some d =>
    obtain ⟨path, n, found⟩ := (normal d rfl).exists_at?_eq_some
    exact absurd (found.symm.trans (missing path)) (Option.some_ne_none n)

/-- Normal bubbles with the same integers at all places are the same. -/
theorem Normal.eq_of_at? (normal : a.Normal) (other : b.Normal)
    (same : ∀ path, a.at? path = b.at? path) : a = b := by
  induction normal generalizing b with
  | scalar n =>
    cases b with
    | scalar m =>
      have value : some n = some m := same []
      rw [Option.some.inj value]
    | double cs => exact absurd (same []) (Option.some_ne_none n)
  | @double bs several parts ih =>
    cases other with
    | scalar m => exact absurd (same []).symm (Option.some_ne_none m)
    | @double cs more others =>
      congr 1
      apply List.ext_getElem?
      intro i
      have below : ∀ path, bs[i]?.bind (at? · path) = cs[i]?.bind (at? · path) :=
        fun path => same (i :: path)
      cases first : bs[i]? with
      | none =>
        -- A normal bubble here would have an integer at some place, and the other one has none.
        rw [first] at below
        symm
        apply eq_none_of_at? _ fun path => (below path).symm
        exact fun d found => others d (List.mem_of_getElem? found)
      | some d =>
        have held := parts d (List.mem_of_getElem? first)
        rw [first] at below
        cases second : cs[i]? with
        | none =>
          rw [second] at below
          exact eq_none_of_at? (fun e found => Option.some.inj found ▸ held) below
        | some e =>
          rw [second] at below
          rw [ih d (List.mem_of_getElem? first) (others e (List.mem_of_getElem? second)) below]

theorem getElem?_partners (compound : (a.isDouble || b.isDouble) = true) (i : Nat) :
    (a.partners b)[i]? = Option.map₂ Prod.mk (a.element? i) (b.element? i) := by
  cases a with
  | scalar x =>
    cases b with
    | scalar y => simp [isDouble] at compound
    | double ys =>
      rw [partners, List.getElem?_map]
      rfl
  | double xs =>
    cases b with
    | scalar y =>
      rw [partners, List.getElem?_map, element?, element?, Option.map₂_coe_right]
    | double ys =>
      rw [partners, List.zip, List.getElem?_zipWith, element?, element?]
      cases xs[i]? <;> cases ys[i]? <;> rfl

theorem map₂_at?_cons (g : Int → Int → Int) (compound : (a.isDouble || b.isDouble) = true)
    (i : Nat) (path : List Nat) :
    Option.map₂ g (a.at? (i :: path)) (b.at? (i :: path)) =
      (a.partners b)[i]?.bind fun p => Option.map₂ g (p.1.at? path) (p.2.at? path) := by
  rw [at?_cons, at?_cons, getElem?_partners compound]
  cases a.element? i with
  | none => rfl
  | some d =>
    cases b.element? i with
    | none => exact Option.map₂_none_right g _
    | some e => rfl

theorem map₂_at?_nil (g : Int → Int → Int) (compound : (a.isDouble || b.isDouble) = true) :
    Option.map₂ g (a.at? []) (b.at? []) = none := by
  cases a with
  | double xs => rfl
  | scalar x =>
    cases b with
    | double ys => rfl
    | scalar y => simp [isDouble] at compound

theorem Normal.two_le_length_partners (normal : a.Normal) (other : b.Normal)
    (compound : (a.isDouble || b.isDouble) = true) : 2 ≤ (a.partners b).length := by
  apply le_length_partners compound
  · rintro xs rfl
    cases normal with
    | double several parts => exact several
  · rintro ys rfl
    cases other with
    | double several parts => exact several

theorem getElem?_bind_congr {α β γ : Type} {items : List α} {results : List β}
    {observe : β → Option γ} {expected : α → Option γ}
    (same : results.map observe = items.map expected) (i : Nat) :
    results[i]?.bind observe = items[i]?.bind expected := by
  have entry : results[i]?.map observe = items[i]?.map expected := by
    rw [← List.getElem?_map, same, List.getElem?_map]
  calc
    results[i]?.bind observe = (results[i]?.map observe).bind id := by
      rw [Option.bind_map, Function.id_comp]
    _ = items[i]?.bind expected := by rw [entry, Option.bind_map, Function.id_comp]

/-- What two normal bubbles give has at each place what their integers there give, and nothing where
one of them has none. -/
theorem at?_zipLeaves {ε : Type} {f : Int → Int → Except ε Bubble} {g : Int → Int → Int}
    (leaves : ∀ x y part, f x y = .ok part → part = scalar (g x y))
    (normal : a.Normal) (other : b.Normal) {result : Bubble}
    (zipped : zipLeaves f a b = .ok result) (path : List Nat) :
    result.at? path = Option.map₂ g (a.at? path) (b.at? path) := by
  induction a, b using meeting_induction generalizing result path with
  | scalars x y =>
    rw [leaves x y result zipped, at?_scalar, at?_scalar, at?_scalar, Option.map₂_some_some]
  | apart a b compound ih =>
    rw [zipLeaves_apart f compound] at zipped
    obtain ⟨parts, done, rfl⟩ := exists_of_map_eq_ok zipped
    -- Normal bubbles have two partners at least, so the list is taken up as a double of them.
    have several : 2 ≤ parts.length := by
      rw [length_of_mapM_eq_ok done]
      exact normal.two_le_length_partners other compound
    rw [ofList_of_two_le several]
    cases path with
    | nil => exact (map₂_at?_nil g compound).symm
    | cons i path =>
      rw [map₂_at?_cons g compound]
      apply getElem?_bind_congr
      apply map_eq_of_mapM_eq_ok done
      intro p member part made
      obtain ⟨left, right⟩ := mem_toList_of_mem_partners member
      exact ih p member (normal.of_mem_toList left) (other.of_mem_toList right) made path

section Combined

variable {op : ArithmeticOp} {g : Int → Int → Int}

theorem at?_combine (single : ∀ x y, op.integers x y = [g x y]) (normal : a.Normal)
    (other : b.Normal) {result : Bubble} (combined : a.combine op b = .ok result)
    (path : List Nat) : result.at? path = Option.map₂ g (a.at? path) (b.at? path) := by
  apply at?_zipLeaves _ normal other combined
  intro x y part made
  rw [onScalars_eq_ofInts made, single]
  rfl

theorem combine_comm (op : ArithmeticOp) (comm : ∀ x y, onScalars op x y = onScalars op y x)
    (a b : Bubble) : a.combine op b = b.combine op a := by
  have swapped : (fun x y => onScalars op y x) = onScalars op := by
    funext x y
    exact comm y x
  rw [combine, combine, ← zipLeaves_swap, swapped]

theorem eq_of_combine_assoc (single : ∀ x y, op.integers x y = [g x y])
    (assoc : ∀ x y z, g (g x y) z = g x (g y z)) (left : a.Normal) (middle : b.Normal)
    (right : c.Normal) {first second : Bubble}
    (grouped : (a.combine op b >>= (·.combine op c)) = .ok first)
    (regrouped : (b.combine op c >>= (a.combine op ·)) = .ok second) : first = second := by
  obtain ⟨ab, front, whole⟩ := exists_of_bind_eq_ok grouped
  obtain ⟨bc, back, same⟩ := exists_of_bind_eq_ok regrouped
  apply (normal_combine whole).eq_of_at? (normal_combine same)
  intro path
  rw [at?_combine single (normal_combine front) right whole, at?_combine single left middle front,
    at?_combine single left (normal_combine back) same, at?_combine single middle right back]
  exact Option.map₂_assoc assoc

theorem eq_of_combine_distrib (left : a.Normal) (middle : b.Normal) (right : c.Normal)
    {first second : Bubble}
    (factored : (b.combine .add c >>= (a.combine .mul ·)) = .ok first)
    (expanded : (do
      let ab ← a.combine .mul b
      let ac ← a.combine .mul c
      ab.combine .add ac) = .ok second) : first = second := by
  obtain ⟨sum, added, whole⟩ := exists_of_bind_eq_ok factored
  obtain ⟨ab, front, rest⟩ := exists_of_bind_eq_ok expanded
  obtain ⟨ac, back, same⟩ := exists_of_bind_eq_ok rest
  have plus : ∀ x y, ArithmeticOp.add.integers x y = [x + y] := fun _ _ => rfl
  have times : ∀ x y, ArithmeticOp.mul.integers x y = [x * y] := fun _ _ => rfl
  apply (normal_combine whole).eq_of_at? (normal_combine same)
  intro path
  rw [at?_combine times left (normal_combine added) whole, at?_combine plus middle right added,
    at?_combine plus (normal_combine front) (normal_combine back) same,
    at?_combine times left middle front, at?_combine times left right back]
  cases a.at? path with
  | none => rfl
  | some x =>
    cases b.at? path with
    | none => rfl
    | some y =>
      cases c.at? path with
      | none => rfl
      | some z => exact congrArg some (Int.mul_add x y z)

end Combined

/-- Sums and products do not depend on the order of two bubbles, whatever these are, nor do their
faults. Of normal bubbles that are not refused, sums and products do not depend on the grouping, and
a product with a sum is the sum of the products. -/
theorem sums_and_products (a b : Bubble) :
    a.combine .add b = b.combine .add a ∧ a.combine .mul b = b.combine .mul a ∧
    ∀ c, a.Normal → b.Normal → c.Normal →
      (∀ op, op = .add ∨ op = .mul → ∀ first second,
        (a.combine op b >>= (·.combine op c)) = .ok first →
        (b.combine op c >>= (a.combine op ·)) = .ok second → first = second) ∧
      ∀ first second, (b.combine .add c >>= (a.combine .mul ·)) = .ok first →
        (do
          let ab ← a.combine .mul b
          let ac ← a.combine .mul c
          ab.combine .add ac) = .ok second → first = second := by
  refine ⟨combine_comm .add ?_ a b, combine_comm .mul ?_ a b, ?_⟩
  · intro x y
    rw [onScalars, onScalars, Int.add_comm]
  · intro x y
    rw [onScalars, onScalars, Int.mul_comm]
  · intro c left middle right
    constructor
    · rintro op (rfl | rfl) first second grouped regrouped
      · exact eq_of_combine_assoc (fun _ _ => rfl) Int.add_assoc left middle right grouped regrouped
      · exact eq_of_combine_assoc (fun _ _ => rfl) Int.mul_assoc left middle right grouped regrouped
    · intro first second factored expanded
      exact eq_of_combine_distrib left middle right factored expanded

theorem sums_and_products_truncated :
    (∃ first second,
      ((double [.scalar 1, .scalar 2, .scalar 3]).combine .mul
        (.double [.scalar 4, .double [.scalar 5, .scalar 6]]) >>=
          (·.combine .mul (.scalar 7))) = .ok first ∧
      ((double [.scalar 4, .double [.scalar 5, .scalar 6]]).combine .mul (.scalar 7) >>=
          ((double [.scalar 1, .scalar 2, .scalar 3]).combine .mul ·)) = .ok second ∧
      first = second) ∧
    ∃ first second,
      ((double [.scalar 4, .double [.scalar 5, .scalar 6]]).combine .add (.scalar 7) >>=
        ((double [.scalar 1, .scalar 2, .scalar 3]).combine .mul ·)) = .ok first ∧
      (do
        let ab ← (double [.scalar 1, .scalar 2, .scalar 3]).combine .mul
          (.double [.scalar 4, .double [.scalar 5, .scalar 6]])
        let ac ← (double [.scalar 1, .scalar 2, .scalar 3]).combine .mul (.scalar 7)
        ab.combine .add ac) = .ok second ∧
      first = second := by
  have left : Normal (.double [.scalar 1, .scalar 2, .scalar 3]) := normal_ofInts [1, 2, 3]
  have middle : Normal (.double [.scalar 4, .double [.scalar 5, .scalar 6]]) := by
    refine .double (by decide) (List.forall_mem_cons.2 ⟨.scalar 4, ?_⟩)
    exact List.forall_mem_singleton.2 (normal_ofInts [5, 6])
  obtain ⟨-, -, laws⟩ := sums_and_products (.double [.scalar 1, .scalar 2, .scalar 3])
    (.double [.scalar 4, .double [.scalar 5, .scalar 6]])
  obtain ⟨assoc, distrib⟩ := laws (.scalar 7) left middle (.scalar 7)
  refine ⟨⟨.double [.scalar 28, .double [.scalar 70, .scalar 84]], _, rfl, rfl, ?_⟩,
    ⟨.double [.scalar 11, .double [.scalar 24, .scalar 26]], _, rfl, rfl, ?_⟩⟩
  · exact assoc .mul (.inr rfl) _ _ rfl rfl
  · exact distrib _ _ rfl rfl

end Bubble

end AwaLang
