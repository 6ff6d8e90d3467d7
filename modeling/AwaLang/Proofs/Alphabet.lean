import AwaLang.Alphabet
import AwaLang.Proofs.Except

namespace AwaLang

namespace Alphabet

variable {index : Int} {c : Char}

theorem letter_eq_ok_iff : letter index = .ok c ↔ ∃ n : Nat, index = n ∧ letters[n]? = some c := by
  cases index with
  | negSucc n =>
    constructor
    · intro spelled
      contradiction
    · rintro ⟨m, same, -⟩
      exact absurd same (by omega)
  | ofNat n =>
    have read : letter (.ofNat n) = .ok c ↔ letters[n]? = some c := by
      rw [letter]
      cases letters[n]? <;> simp
    rw [read]
    constructor
    · intro stands
      exact ⟨n, rfl, stands⟩
    · rintro ⟨m, same, stands⟩
      exact Int.ofNat.inj same ▸ stands

theorem range_of_letter (spelled : letter index = .ok c) : 0 ≤ index ∧ index < 64 := by
  obtain ⟨n, rfl, found⟩ := letter_eq_ok_iff.1 spelled
  have inside : n < 64 := (List.getElem?_eq_some_iff.1 found).1
  omega

theorem idxOf?_eq_some_iff {n : Nat} : letters.idxOf? c = some n ↔ letters[n]? = some c := by
  rw [List.idxOf?_eq_some_iff, List.getElem?_eq_some_iff]
  constructor
  · rintro ⟨inside, same, -⟩
    exact ⟨inside, same⟩
  · rintro ⟨inside, same⟩
    refine ⟨inside, same, fun m before again => ?_⟩
    have twice : m = n := (List.getElem_inj letters_nodup).1 (again.trans same.symm)
    omega

theorem indexOf_eq_ok_iff : indexOf c = .ok index ↔ letter index = .ok c := by
  rw [letter_eq_ok_iff, indexOf]
  cases found : letters.idxOf? c with
  | none =>
    constructor
    · intro placed
      contradiction
    · rintro ⟨n, -, stands⟩
      rw [idxOf?_eq_some_iff.2 stands] at found
      contradiction
  | some n =>
    rw [Except.ok.injEq]
    constructor
    · rintro rfl
      exact ⟨n, rfl, idxOf?_eq_some_iff.1 found⟩
    · rintro ⟨m, rfl, stands⟩
      rw [idxOf?_eq_some_iff.2 stands] at found
      exact congrArg Nat.cast (Option.some.inj found).symm

theorem faultOf_indexOf (c : Char) :
    faultOf (indexOf c) = (Option.guard (· ∉ letters) c).map .unknownCharacter := by
  rw [indexOf]
  cases found : letters.idxOf? c with
  | none => simp [faultOf, Option.guard, List.idxOf?_eq_none_iff.1 found]
  | some n =>
    have stands : c ∈ letters := List.mem_of_getElem? (idxOf?_eq_some_iff.1 found)
    simp [faultOf, Option.guard, stands]

theorem faultOf_mapM_indexOf (text : List Char) :
    faultOf (text.mapM indexOf) = (text.find? (· ∉ letters)).map .unknownCharacter := by
  rw [faultOf_mapM, funext faultOf_indexOf, ← List.findSome?_guard, List.map_findSome?]
  rfl

end Alphabet

end AwaLang
