import AwaLang.Proofs.Instruction.Layout
import Mathlib.Data.List.Basic

namespace AwaLang

/-- The token at an index belongs to the operation before it. -/
def isParameter (tokens : List Token) : Nat → Bool
  | 0 => false
  | index + 1 =>
    !isParameter tokens index && (tokens[index]?.bind Opcode.decode).any Opcode.takesParameter

namespace Role

def atIndex (tokens : List Token) (index : Nat) : Role :=
  if isParameter tokens index then parameter else opcode

theorem width_atIndex (tokens : List Token) (index : Nat) :
    (Role.atIndex tokens index).width = if isParameter tokens index then 8 else 5 := by
  unfold Role.atIndex
  split <;> rfl

theorem atIndex_succ {tokens : List Token} {index : Nat} {token : Token}
    (present : tokens[index]? = some token) :
    Role.atIndex tokens (index + 1) = (Role.atIndex tokens index).next token := by
  cases own : isParameter tokens index with
  | true => simp [Role.atIndex, isParameter, own, next]
  | false => simp [Role.atIndex, isParameter, own, next, present]

theorem getElem?_assign_succ {role own : Role} {tokens : List Token} {index : Nat} {token : Token}
    (before : (assign role tokens)[index]? = some (own, token)) :
    (assign role tokens)[index + 1]? = tokens[index + 1]?.map (own.next token, ·) := by
  induction tokens generalizing role index with
  | nil => simp [assign] at before
  | cons first rest ih =>
    rw [assign] at before
    cases index with
    | succ index => simpa [assign] using ih before
    | zero =>
      simp only [List.getElem?_cons_zero, Option.some.injEq, Prod.mk.injEq] at before
      obtain ⟨rfl, rfl⟩ := before
      cases rest <;> simp [assign]

/-- The walk that assigns the roles agrees with what the tokens before an index say of it. -/
theorem getElem?_assign (tokens : List Token) (index : Nat) :
    (assign .opcode tokens)[index]? = tokens[index]?.map (Role.atIndex tokens index, ·) := by
  induction index with
  | zero => cases tokens <;> simp [assign, Role.atIndex, isParameter]
  | succ index ih =>
    cases present : tokens[index]? with
    | some token =>
      rw [present, Option.map_some] at ih
      rw [getElem?_assign_succ ih, atIndex_succ present]
    | none =>
      have ended : tokens.length ≤ index := List.getElem?_eq_none_iff.1 present
      have past : tokens[index + 1]? = none := List.getElem?_eq_none_iff.2 (by omega)
      rw [past, Option.map_none, List.getElem?_eq_none_iff, length_assign]
      omega

end Role

namespace Instruction

theorem isParameter_add {tokens : List Token} {start : Nat}
    (plain : isParameter tokens start = false) (index : Nat) :
    isParameter tokens (start + index) = isParameter (tokens.drop start) index := by
  induction index with
  | zero => exact plain
  | succ index ih => rw [← Nat.add_assoc, isParameter, isParameter, ih, List.getElem?_drop]

def operationIndices (tokens : List Token) : List Nat :=
  (List.range tokens.length).filter (!isParameter tokens ·)

theorem mem_operationIndices {tokens : List Token} {index : Nat} :
    index ∈ operationIndices tokens ↔ index < tokens.length ∧ isParameter tokens index = false := by
  simp [operationIndices]

theorem operationIndices_split {tokens : List Token} {start : Nat}
    (plain : isParameter tokens start = false) (within : start ≤ tokens.length) :
    operationIndices tokens =
      (List.range start).filter (!isParameter tokens ·) ++
        (operationIndices (tokens.drop start)).map (start + ·) := by
  have length : tokens.length = start + (tokens.drop start).length := by
    rw [List.length_drop]
    omega
  have behind (index : Nat) :
      (!isParameter tokens (start + index)) = !isParameter (tokens.drop start) index := by
    rw [isParameter_add plain]
  rw [operationIndices, length, List.range_add, List.filter_append, List.filter_map]
  congr 2
  apply List.filter_congr
  intro index _
  exact behind index

theorem operationIndices_eq_cons {tokens : List Token} {first : Instruction}
    (found : at? tokens 0 = some first) :
    operationIndices tokens =
      0 :: (operationIndices (tokens.drop first.length)).map (first.length + ·) := by
  rcases front_cases found with ⟨token, rest, rfl, unknown, rfl⟩ |
    ⟨token, op, rfl, known, takes, rfl⟩ | ⟨token, op, parameter, rest, rfl, known, takes, rfl⟩ |
    ⟨token, op, rest, rfl, known, alone, rfl⟩
  · have plain : isParameter (token :: rest) 1 = false := by simp [isParameter, unknown]
    exact operationIndices_split plain (by simp)
  · rfl
  · have own : isParameter (token :: parameter :: rest) 1 = true := by
      simp [isParameter, known, takes]
    have plain : isParameter (token :: parameter :: rest) 2 = false := by
      rw [isParameter, own]
      rfl
    have front : (List.range 2).filter (!isParameter (token :: parameter :: rest) ·) = [0] := by
      simp only [List.range_succ, List.range_zero, List.nil_append, List.cons_append]
      rw [List.filter_cons_of_pos rfl, List.filter_cons_of_neg (by simp [own]), List.filter_nil]
    rw [operationIndices_split plain (by simp), front]
    rfl
  · have plain : isParameter (token :: rest) 1 = false := by simp [isParameter, known, alone]
    exact operationIndices_split plain (by simp)

theorem addresses_placeFrom (address : Nat) (tokens : List Token) :
    (placeFrom address tokens).map Placed.address =
      (operationIndices tokens).map (address + ·) := by
  induction tokens using layout_induction generalizing address with
  | nil => rfl
  | cons tokens first found ih =>
    rw [placeFrom_eq_cons found, operationIndices_eq_cons found]
    simp [ih, Nat.add_assoc]

/-- The walk from the front finds an instruction at every token that is no parameter, and nowhere
else. -/
theorem addresses_ofTokens (tokens : List Token) :
    (ofTokens tokens).map Placed.address = operationIndices tokens := by
  rw [ofTokens, addresses_placeFrom]
  simp

theorem pairwise_address_ofTokens (tokens : List Token) :
    (ofTokens tokens).Pairwise (·.address < ·.address) := by
  rw [← List.pairwise_map (f := Placed.address), addresses_ofTokens, operationIndices]
  exact List.pairwise_lt_range.filter _

theorem ofTokens_eq_filterMap (tokens : List Token) :
    ofTokens tokens =
      (operationIndices tokens).filterMap fun index =>
        (at? tokens index).map (Placed.mk index) := by
  have each : ∀ placed ∈ ofTokens tokens,
      (at? tokens placed.address).map (Placed.mk placed.address) = some placed := by
    intro placed member
    rw [at?_of_mem_ofTokens member]
    rfl
  calc
    ofTokens tokens = (ofTokens tokens).filterMap some := List.filterMap_some.symm
    _ = (ofTokens tokens).filterMap fun placed =>
          (at? tokens placed.address).map (Placed.mk placed.address) := by
      apply List.filterMap_congr
      intro placed member
      exact (each placed member).symm
    _ = ((ofTokens tokens).map Placed.address).filterMap fun index =>
          (at? tokens index).map (Placed.mk index) := by rw [List.filterMap_map]; rfl
    _ = _ := by rw [addresses_ofTokens]

theorem mem_ofTokens_iff {tokens : List Token} {placed : Placed} :
    placed ∈ ofTokens tokens ↔
      isParameter tokens placed.address = false ∧
        at? tokens placed.address = some placed.instruction := by
  constructor
  · intro member
    have place : placed.address ∈ operationIndices tokens := by
      rw [← addresses_ofTokens]
      exact List.mem_map_of_mem member
    exact ⟨(mem_operationIndices.1 place).2, at?_of_mem_ofTokens member⟩
  · rintro ⟨plain, found⟩
    rw [ofTokens_eq_filterMap, List.mem_filterMap]
    refine ⟨placed.address, mem_operationIndices.2 ⟨lt_of_at?_eq_some found, plain⟩, ?_⟩
    rw [found]
    rfl

end Instruction

end AwaLang
