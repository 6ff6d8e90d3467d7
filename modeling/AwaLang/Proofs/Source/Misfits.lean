import AwaLang.Proofs.Source.Widths
import Mathlib.Data.Nat.Find

namespace AwaLang.Source

structure FirstLarge (tokens : List Token) (misfit : Misfit) : Prop where
  present : tokens[misfit.index]? = some misfit.value
  width : misfit.width = (Role.atIndex tokens misfit.index).width
  large : ¬ (Role.atIndex tokens misfit.index).fits misfit.value
  before : ∀ index < misfit.index, ∀ token, tokens[index]? = some token →
    (Role.atIndex tokens index).fits token

theorem getElem?_of_assign_eq {tokens : List Token} {front rest : List (Role × Token)}
    {role : Role} {token : Token}
    (split : Role.assign .opcode tokens = front ++ (role, token) :: rest) :
    tokens[front.length]? = some token ∧ Role.atIndex tokens front.length = role := by
  have entry := Role.getElem?_assign tokens front.length
  rw [split, List.getElem?_append_right (Nat.le_refl _), Nat.sub_self, List.getElem?_cons_zero]
    at entry
  obtain ⟨own, present, same⟩ := Option.map_eq_some_iff.1 entry.symm
  rw [Prod.mk.injEq] at same
  exact ⟨same.2 ▸ present, same.1⟩

theorem encode_eq_error_iff_firstLarge {tokens : List Token} {misfit : Misfit} :
    encode tokens = .error misfit ↔ FirstLarge tokens misfit := by
  rw [encode_eq_error_iff]
  constructor
  · intro refused
    obtain ⟨front, role, token, rest, split, fits, large, rfl⟩ := exists_front_of_spellings refused
    obtain ⟨present, own⟩ := getElem?_of_assign_eq split
    rw [Nat.zero_add]
    refine ⟨present, own ▸ rfl, own ▸ large, ?_⟩
    intro index earlier other there
    have entry := Role.getElem?_assign tokens index
    rw [split, List.getElem?_append_left earlier, there, Option.map_some] at entry
    exact fits _ (List.mem_of_getElem? entry)
  · rintro ⟨present, width, large, before⟩
    have inside := (List.getElem?_eq_some_iff.1 present).1
    have fits : ∀ entry ∈ Role.assign .opcode (tokens.take misfit.index),
        entry.1.fits entry.2 := by
      intro entry member
      rw [← Role.take_assign] at member
      obtain ⟨index, there⟩ := List.mem_iff_getElem?.1 member
      rw [List.getElem?_take] at there
      split at there
      · rename_i earlier
        rw [Role.getElem?_assign] at there
        obtain ⟨token, own, rfl⟩ := Option.map_eq_some_iff.1 there
        exact before index earlier token own
      · contradiction
    rw [Role.assign_eq_append present, spellings_misfit fits large, Role.length_assign,
      List.length_take, Nat.zero_add, Nat.min_eq_left (Nat.le_of_lt inside), ← width]

theorem exists_firstLarge_iff {tokens : List Token} :
    (∃ misfit, FirstLarge tokens misfit) ↔
      ∃ index token, tokens[index]? = some token ∧ ¬ (Role.atIndex tokens index).fits token := by
  constructor
  · rintro ⟨misfit, first⟩
    exact ⟨misfit.index, misfit.value, first.present, first.large⟩
  · intro some
    classical
    obtain ⟨token, present, large⟩ := Nat.find_spec some
    refine ⟨⟨Nat.find some, token, (Role.atIndex tokens (Nat.find some)).width⟩,
      present, rfl, large, ?_⟩
    intro index earlier other there
    by_contra refused
    exact Nat.find_min some earlier ⟨other, there, refused⟩

/-- The numbers that the encoder takes at an index: those of eight bits for a parameter, and those
of five for any other token. -/
def HasRoom (tokens : List Token) (index : Nat) (token : Token) : Prop :=
  if isParameter tokens index then -128 ≤ token ∧ token ≤ 255 else -16 ≤ token ∧ token ≤ 31

theorem fits_atIndex_iff_hasRoom {tokens : List Token} {index : Nat} {token : Token} :
    (Role.atIndex tokens index).fits token ↔ HasRoom tokens index token := by
  rw [HasRoom, Role.atIndex]
  split
  · exact Role.fits_parameter token
  · exact Role.fits_opcode token

theorem firstLarge_iff_hasRoom {tokens : List Token} {misfit : Misfit} :
    FirstLarge tokens misfit ↔
      tokens[misfit.index]? = some misfit.value ∧
      misfit.width = (if isParameter tokens misfit.index then 8 else 5) ∧
      ¬ HasRoom tokens misfit.index misfit.value ∧
      ∀ index < misfit.index, ∀ token, tokens[index]? = some token →
        HasRoom tokens index token := by
  simp only [← Role.width_atIndex, ← fits_atIndex_iff_hasRoom]
  constructor
  · rintro ⟨present, width, large, before⟩
    exact ⟨present, width, large, before⟩
  · rintro ⟨present, width, large, before⟩
    exact ⟨present, width, large, before⟩

theorem exists_encode_ok_iff {tokens : List Token} :
    (∃ source, encode tokens = .ok source) ↔
      ∀ index token, tokens[index]? = some token → HasRoom tokens index token := by
  have refused : (∃ misfit, encode tokens = .error misfit) ↔
      ∃ index token, tokens[index]? = some token ∧ ¬ HasRoom tokens index token := by
    simp only [encode_eq_error_iff_firstLarge, exists_firstLarge_iff, fits_atIndex_iff_hasRoom]
  cases encoded : encode tokens with
  | ok source =>
    refine iff_of_true ⟨source, rfl⟩ ?_
    intro index token present
    by_contra large
    obtain ⟨misfit, wrong⟩ := refused.2 ⟨index, token, present, large⟩
    rw [encoded] at wrong
    contradiction
  | error misfit =>
    obtain ⟨index, token, present, large⟩ := refused.1 ⟨misfit, encoded⟩
    refine iff_of_false ?_ fun room => large (room index token present)
    rintro ⟨source, wrong⟩
    contradiction

/-- The encoder takes the streams that have room for all their tokens. Of any other it names the
first token without room, by its index, its value and the bits that it would have had. -/
theorem encode_names_first_large (tokens : List Token) :
    ((∃ source, encode tokens = .ok source) ↔
      ∀ index token, tokens[index]? = some token → HasRoom tokens index token) ∧
    ∀ misfit, encode tokens = .error misfit ↔
      tokens[misfit.index]? = some misfit.value ∧
      misfit.width = (if isParameter tokens misfit.index then 8 else 5) ∧
      ¬ HasRoom tokens misfit.index misfit.value ∧
      ∀ index < misfit.index, ∀ token, tokens[index]? = some token →
        HasRoom tokens index token :=
  ⟨exists_encode_ok_iff, fun _ => encode_eq_error_iff_firstLarge.trans firstLarge_iff_hasRoom⟩

/-- A parameter that reads as `blo` takes no parameter, so the next token has five bits again. -/
example : encode [5, 5, -17, 256] = .error ⟨2, -17, 5⟩ := by decide

end AwaLang.Source
