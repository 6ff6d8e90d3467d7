import AwaLang.Listing
import AwaLang.Proofs.Instruction.Parameters

namespace AwaLang.Listing

open Instruction

theorem ne_space_of_mem_address {index : Nat} {c : Char} (member : c ∈ address index) :
    c ≠ ' ' := by
  rintro rfl
  rcases List.mem_append.1 member with zero | digit
  · have same := (List.mem_replicate.1 zero).2
    contradiction
  · have digit := Nat.isDigit_of_mem_toDigits (by decide) (by decide) digit
    contradiction

theorem address_injective {first second : Nat} (same : address first = address second) :
    first = second := by
  have value (index : Nat) : Nat.ofDigitChars 10 (address index) 0 = index := by
    rw [address, List.leftpad, Nat.ofDigitChars_append, Nat.ofDigitChars_replicate_zero]
    simp
  calc
    first = Nat.ofDigitChars 10 (address first) 0 := (value first).symm
    _ = Nat.ofDigitChars 10 (address second) 0 := by rw [same]
    _ = second := value second

theorem takeWhile_address_append (index : Nat) (rest : List Char) :
    (address index ++ ' ' :: rest).takeWhile (· ≠ ' ') = address index := by
  rw [List.takeWhile_append_of_pos]
  · simp
  · intro c member
    exact decide_eq_true (ne_space_of_mem_address member)

theorem address_prefix_line_iff {targets : List Token} {placed : Placed} {index : Nat} :
    address index ++ [' '] <+: line targets placed ↔ placed.address = index := by
  have shape : line targets placed =
      address placed.address ++ ' ' :: (marker targets placed.instruction ++
        code placed.instruction) := by
    simp [line]
  constructor
  · rintro ⟨rest, whole⟩
    apply address_injective
    rw [shape, List.append_assoc, List.singleton_append] at whole
    calc
      address placed.address = (address index ++ ' ' :: rest).takeWhile (· ≠ ' ') := by
        rw [whole, takeWhile_address_append]
      _ = address index := takeWhile_address_append index rest
  · rintro rfl
    exact ⟨_, by rw [shape, List.append_assoc, List.singleton_append]⟩

def ShowsAddress (tokens : List Token) (index : Nat) : Prop :=
  ∃ shown ∈ lines tokens, address index ++ [' '] <+: shown

theorem showsAddress_iff {tokens : List Token} {index : Nat} :
    ShowsAddress tokens index ↔ index ∈ operationIndices tokens := by
  rw [← addresses_ofTokens, List.mem_map]
  constructor
  · rintro ⟨shown, member, begins⟩
    obtain ⟨placed, inside, rfl⟩ := List.mem_map.1 member
    exact ⟨placed, inside, address_prefix_line_iff.1 begins⟩
  · rintro ⟨placed, inside, rfl⟩
    exact ⟨_, List.mem_map_of_mem inside, address_prefix_line_iff.2 rfl⟩

theorem targets_eq_filterMap (tokens : List Token) :
    targets tokens =
      (operationIndices tokens).filterMap fun index => (at? tokens index).bind target? := by
  rw [targets, ofTokens_eq_filterMap, List.filterMap_filterMap]
  congr
  funext index
  cases at? tokens index <;> rfl

end AwaLang.Listing
