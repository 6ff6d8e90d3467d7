import AwaLang.Proofs.Bubble.Normal
import AwaLang.Proofs.Abyss.Operations

/-!
Many bubbles made into one. To surround the top bubbles is to pop them one by one, each put in front
of those popped before it, and it is to merge as often as there are bubbles below the top one. What
was made bursts into the elements of all of them.
-/

namespace AwaLang.Abyss

def upper (abyss : Abyss) (count : Nat) : List Bubble := (abyss.topFirst.take count).reverse

def lower (abyss : Abyss) (count : Nat) : List Bubble := (abyss.topFirst.drop count).reverse

/-- Pops bubbles into one, each put in front of what is gathered already. -/
def gather : Nat → Bubble → Abyss → Except Underflow (Bubble × Abyss)
  | 0, gathered, abyss => .ok (gathered, abyss)
  | count + 1, gathered, abyss => do
    let (b, rest) ← abyss.pop
    gather count (gathered.merge b) rest

def mergeTimes : Nat → Abyss → Except Underflow Abyss
  | 0, abyss => .ok abyss
  | count + 1, abyss => do
    let after ← abyss.merge
    mergeTimes count after

variable {abyss : Abyss} {count : Nat}

theorem gather_double {bs elements : List Bubble} (enough : count ≤ bs.length) :
    gather count (.double elements) ⟨bs⟩ =
      .ok (.double ((bs.take count).reverse.flatMap Bubble.toList ++ elements),
        ⟨bs.drop count⟩) := by
  induction count generalizing bs elements with
  | zero => rfl
  | succ count ih =>
    cases bs with
    | nil => contradiction
    | cons b bs =>
      have first : gather (count + 1) (.double elements) ⟨b :: bs⟩ =
          gather count (.double (b.toList ++ elements)) ⟨bs⟩ := rfl
      rw [first, ih (Nat.le_of_succ_le_succ enough), List.take_succ_cons, List.reverse_cons,
        List.flatMap_append, List.flatMap_singleton, List.append_assoc, List.drop_succ_cons]

theorem mergeTimes_of_gather {rest left : Abyss} {top gathered : Bubble}
    (done : gather count top rest = .ok (gathered, left)) :
    mergeTimes count (rest.push top) = .ok (left.push gathered) := by
  induction count generalizing rest top with
  | zero =>
    obtain ⟨rfl, rfl⟩ := Prod.mk.inj (Except.ok.inj done)
    rfl
  | succ count ih =>
    obtain ⟨_ | ⟨b, below⟩⟩ := rest
    · contradiction
    · have first : mergeTimes (count + 1) (push ⟨b :: below⟩ top) =
          mergeTimes count (push ⟨below⟩ (top.merge b)) := rfl
      rw [first]
      exact ih done

theorem bottomUp_eq_lower_append_upper (abyss : Abyss) (count : Nat) :
    abyss.bottomUp = abyss.lower count ++ abyss.upper count := by
  rw [lower, upper, ← List.reverse_append, List.take_append_drop, bottomUp]

theorem length_upper (enough : count ≤ abyss.size) : (abyss.upper count).length = count := by
  rw [upper, List.length_reverse, List.length_take]
  exact Nat.min_eq_left enough

theorem surround_of_le (enough : count ≤ abyss.size) :
    abyss.surround count =
      .ok (push ⟨abyss.topFirst.drop count⟩
        (.ofList ((abyss.upper count).flatMap Bubble.toList))) := by
  rw [surround, require_of_le enough]
  rfl

theorem bottomUp_inj {first second : Abyss} (same : first.bottomUp = second.bottomUp) :
    first = second :=
  congrArg Abyss.mk (List.reverse_inj.1 same)

theorem length_le_flatMap_toList {bs : List Bubble} (filled : ∀ b ∈ bs, b ≠ .double []) :
    bs.length ≤ (bs.flatMap Bubble.toList).length := by
  induction bs with
  | nil => exact Nat.le_refl 0
  | cons b bs ih =>
    rw [List.forall_mem_cons] at filled
    have own : 0 < b.toList.length := by
      cases b with
      | scalar n => exact Nat.zero_lt_one
      | double elements =>
        apply List.length_pos_iff.2
        rintro rfl
        exact filled.1 rfl
    rw [List.flatMap_cons, List.length_append, List.length_cons]
    have others := ih filled.2
    omega

theorem flatMap_toList_of_scalars {bs : List Bubble} (scalars : ∀ b ∈ bs, b.isDouble = false) :
    bs.flatMap Bubble.toList = bs := by
  induction bs with
  | nil => rfl
  | cons b bs ih =>
    rw [List.forall_mem_cons] at scalars
    rw [List.flatMap_cons, ih scalars.2]
    cases b with
    | scalar n => rfl
    | double elements => exact absurd scalars.1 (by simp [Bubble.isDouble])

theorem surround_of_filled (several : 2 ≤ count) (enough : count ≤ abyss.size)
    (filled : ∀ b ∈ abyss.upper count, b ≠ .double []) :
    abyss.surround count =
      .ok (push ⟨abyss.topFirst.drop count⟩
        (.double ((abyss.upper count).flatMap Bubble.toList))) := by
  have some := length_le_flatMap_toList filled
  rw [length_upper enough] at some
  rw [surround_of_le enough, Bubble.ofList_of_two_le (Nat.le_trans several some)]

/-- The first merge makes a double, and every further one puts the next elements in front of it. -/
theorem mergeTimes_of_lt (enough : count + 1 < abyss.size) :
    abyss.mergeTimes (count + 1) =
      .ok (push ⟨abyss.topFirst.drop (count + 2)⟩
        (.double ((abyss.upper (count + 2)).flatMap Bubble.toList))) := by
  obtain ⟨_ | ⟨a, _ | ⟨b, below⟩⟩⟩ := abyss
  · contradiction
  · simp [size] at enough
  · have first : mergeTimes (count + 1) ⟨a :: b :: below⟩ =
        mergeTimes count (push ⟨below⟩ (.double (b.toList ++ a.toList))) := rfl
    have rest : count ≤ below.length := Nat.le_of_lt_succ (Nat.lt_of_succ_lt_succ enough)
    rw [first, mergeTimes_of_gather (gather_double rest)]
    simp [upper, List.flatMap_append]

theorem bottomUp_split_push_double (rest : Abyss) (elements : List Bubble) :
    ∃ burst, (rest.push (.double elements)).split = .ok burst ∧
      burst.bottomUp = rest.bottomUp ++ elements := by
  refine ⟨⟨elements.reverse ++ rest.topFirst⟩, rfl, ?_⟩
  rw [bottomUp, List.reverse_append, List.reverse_reverse, bottomUp]

theorem bottomUp_split_surround (several : 2 ≤ count) (enough : count ≤ abyss.size)
    (filled : ∀ b ∈ abyss.upper count, b ≠ .double []) :
    ∃ burst, (abyss.surround count >>= split) = .ok burst ∧
      burst.bottomUp = abyss.lower count ++ (abyss.upper count).flatMap Bubble.toList := by
  rw [surround_of_filled several enough filled]
  exact bottomUp_split_push_double _ _

/-- The top bubbles, from the deepest up, are surrounded by what their elements make as a list. This
is what they come to when they are popped one by one and gathered. If there are two or more and no
empty double is among them, it is what merging them one after another gives, and it bursts into
their elements, which is back into themselves if all of them are scalars. -/
theorem surround_gathers (enough : count ≤ abyss.size) :
    (abyss.bottomUp = abyss.lower count ++ abyss.upper count ∧
      (abyss.upper count).length = count) ∧
    (∃ after, abyss.surround count = .ok after ∧
      after.bottomUp =
        abyss.lower count ++ [.ofList ((abyss.upper count).flatMap Bubble.toList)]) ∧
    abyss.surround count = (gather count (.double []) abyss).map
      (fun (gathered, rest) => rest.push (.ofList gathered.released)) ∧
    (2 ≤ count → (∀ b ∈ abyss.upper count, b ≠ .double []) →
      abyss.surround count = abyss.mergeTimes (count - 1) ∧
      ∃ burst, (abyss.surround count >>= split) = .ok burst ∧
        burst.bottomUp = abyss.lower count ++ (abyss.upper count).flatMap Bubble.toList) ∧
    (2 ≤ count → (∀ b ∈ abyss.upper count, b.isDouble = false) →
      (abyss.surround count >>= split) = .ok abyss) := by
  refine ⟨⟨bottomUp_eq_lower_append_upper abyss count, length_upper enough⟩, ?_, ?_, ?_, ?_⟩
  · exact ⟨_, surround_of_le enough, bottomUp_push _ _⟩
  · rw [surround_of_le enough, gather_double enough, List.append_nil]
    rfl
  · intro several filled
    refine ⟨?_, bottomUp_split_surround several enough filled⟩
    obtain ⟨more, rfl⟩ := Nat.exists_eq_add_of_le' several
    rw [surround_of_filled several enough filled]
    exact (mergeTimes_of_lt enough).symm
  · intro several scalars
    have filled : ∀ b ∈ abyss.upper count, b ≠ .double [] := by
      rintro b member rfl
      exact absurd (scalars _ member) (by simp [Bubble.isDouble])
    obtain ⟨burst, done, result⟩ := bottomUp_split_surround several enough filled
    rw [flatMap_toList_of_scalars scalars, ← bottomUp_eq_lower_append_upper] at result
    rw [done, bottomUp_inj result]

/-- A double with a double inside, a scalar and a double above a bubble that is left alone. -/
theorem surround_gathers_nested :
    surround ⟨[.double [.scalar 5, .double [.scalar 6, .scalar 7]], .scalar 4,
        .double [.scalar 2, .scalar 3], .scalar 1]⟩ 3 =
      mergeTimes 2 ⟨[.double [.scalar 5, .double [.scalar 6, .scalar 7]], .scalar 4,
        .double [.scalar 2, .scalar 3], .scalar 1]⟩ ∧
    mergeTimes 2 ⟨[.double [.scalar 5, .double [.scalar 6, .scalar 7]], .scalar 4,
        .double [.scalar 2, .scalar 3], .scalar 1]⟩ =
      .ok ⟨[.double [.scalar 2, .scalar 3, .scalar 4, .scalar 5,
        .double [.scalar 6, .scalar 7]], .scalar 1]⟩ ∧
    (surround ⟨[.scalar 3, .scalar 2, .scalar 1]⟩ 2 >>= split) =
      .ok ⟨[.scalar 3, .scalar 2, .scalar 1]⟩ := by
  have large : 3 ≤ size ⟨[.double [.scalar 5, .double [.scalar 6, .scalar 7]], .scalar 4,
      .double [.scalar 2, .scalar 3], .scalar 1]⟩ := by
    decide
  have small : 2 ≤ size ⟨[.scalar 3, .scalar 2, .scalar 1]⟩ := by decide
  obtain ⟨-, -, -, merges, -⟩ := surround_gathers large
  obtain ⟨-, -, -, -, restores⟩ := surround_gathers small
  exact ⟨(merges (by decide) (by decide)).1, rfl, restores (by decide) (by decide)⟩

end AwaLang.Abyss
