import AwaLang.Source.Decode

namespace AwaLang.Source

structure Opens (text skipped body : List Char) : Prop where
  split : text = skipped ++ (startMarker ++ body)
  first : ∀ earlier later, text = earlier ++ (startMarker ++ later) →
    skipped.length ≤ earlier.length

theorem opens_startMarker (body : List Char) : Opens (startMarker ++ body) [] body :=
  ⟨rfl, fun _ _ _ => Nat.zero_le _⟩

theorem afterMarker_startMarker (position : Nat) (body : List Char) :
    afterMarker position (startMarker ++ body) = some (position + 3, body) := by
  simp [afterMarker, startMarker]

theorem afterMarker_cons {c : Char} {text : List Char}
    (apart : ¬ startMarker <+: c :: text) (position : Nat) :
    afterMarker position (c :: text) = afterMarker (position + 1) text := by
  rw [afterMarker, if_neg]
  rwa [List.isPrefixOf_iff_prefix]

theorem Opens.cons {c : Char} {text skipped body : List Char}
    (apart : ¬ startMarker <+: c :: text) (opens : Opens text skipped body) :
    Opens (c :: text) (c :: skipped) body where
  split := by rw [opens.split, List.cons_append]
  first := by
    intro earlier later split
    cases earlier with
    | nil => exact absurd ⟨later, split.symm⟩ apart
    | cons d earlier =>
      rw [List.cons_append, List.cons.injEq] at split
      exact Nat.succ_le_succ (opens.first earlier later split.2)

theorem opens_of_afterMarker {position place : Nat} {text body : List Char}
    (found : afterMarker position text = some (place, body)) :
    ∃ skipped, Opens text skipped body ∧ place = position + skipped.length + 3 := by
  induction text generalizing position with
  | nil => contradiction
  | cons c text ih =>
    by_cases marked : startMarker <+: c :: text
    · obtain ⟨later, split⟩ := marked
      rw [← split, afterMarker_startMarker, Option.some.injEq, Prod.mk.injEq] at found
      obtain ⟨rfl, rfl⟩ := found
      rw [← split]
      exact ⟨[], opens_startMarker later, rfl⟩
    · rw [afterMarker_cons marked] at found
      obtain ⟨skipped, opens, rfl⟩ := ih found
      refine ⟨c :: skipped, opens.cons marked, ?_⟩
      rw [List.length_cons]
      omega

theorem Opens.unique {text skipped body earlier later : List Char} (opens : Opens text skipped body)
    (other : Opens text earlier later) : earlier = skipped ∧ later = body := by
  have low := opens.first earlier later other.split
  have high := other.first skipped body opens.split
  have same : earlier ++ (startMarker ++ later) = skipped ++ (startMarker ++ body) := by
    rw [← opens.split, ← other.split]
  obtain ⟨front, back⟩ := List.append_inj same (Nat.le_antisymm high low)
  exact ⟨front, List.append_cancel_left back⟩

theorem afterMarker_eq_none_iff {position : Nat} {text : List Char} :
    afterMarker position text = none ↔ ¬ startMarker <:+: text := by
  induction text generalizing position with
  | nil => simp [afterMarker, startMarker]
  | cons c text ih =>
    by_cases marked : startMarker <+: c :: text
    · obtain ⟨later, split⟩ := marked
      have inside : startMarker <:+: c :: text := ⟨[], later, split⟩
      rw [← split, afterMarker_startMarker, split]
      simp [inside]
    · rw [afterMarker_cons marked, ih, List.infix_cons_iff]
      simp [marked]

theorem Opens.afterMarker_eq {text skipped body : List Char} (opens : Opens text skipped body) :
    afterMarker 0 text = some ((skipped ++ startMarker).length, body) := by
  cases found : afterMarker 0 text with
  | none =>
    have inside : startMarker <:+: text := ⟨skipped, body, by rw [opens.split, List.append_assoc]⟩
    exact absurd inside (afterMarker_eq_none_iff.1 found)
  | some opened =>
    obtain ⟨place, later⟩ := opened
    obtain ⟨earlier, other, rfl⟩ := opens_of_afterMarker found
    obtain ⟨rfl, rfl⟩ := opens.unique other
    rw [List.length_append, Nat.zero_add]
    rfl

end AwaLang.Source
