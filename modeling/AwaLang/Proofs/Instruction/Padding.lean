import AwaLang.Proofs.Labels

/-!
Streams with idle instructions put in. In front of every instruction of a stream there may stand
any number of instructions that do nothing; the labels then lead to places from which the streams go
on alike.
-/

namespace AwaLang

open Instruction

/-- The second stream is the first one with tokens that name `nop` put in, each in front of an
instruction. -/
inductive Padded : List Token → List Token → Prop
  | nil : Padded [] []
  | idle {tokens padded : List Token} {token : Token} (named : Opcode.decode token = some .nop)
      (inside : tokens ≠ []) (rest : Padded tokens padded) : Padded tokens (token :: padded)
  | instruction {tokens padded : List Token} {first : Instruction}
      (found : at? tokens 0 = some first) (rest : Padded (tokens.drop first.length) padded) :
      Padded tokens (tokens.take first.length ++ padded)

namespace Instruction

theorem at?_nil (index : Nat) : at? [] index = none := rfl

theorem at?_idle {token : Token} (named : Opcode.decode token = some .nop) (tokens : List Token) :
    at? (token :: tokens) 0 = some (.plain .nop) := by
  simp [at?, named, Opcode.takesParameter]

theorem length_le_of_at? {tokens : List Token} {first : Instruction}
    (found : at? tokens 0 = some first) : first.length ≤ tokens.length := by
  rcases front_cases found with ⟨token, rest, rfl, -, rfl⟩ | ⟨token, op, rfl, -, -, rfl⟩ |
    ⟨token, op, parameter, rest, rfl, -, -, rfl⟩ | ⟨token, op, rest, rfl, -, -, rfl⟩
  all_goals simp [length]

theorem at?_take_append {tokens behind : List Token} {first : Instruction}
    (found : at? tokens 0 = some first)
    (ended : tokens.drop first.length = [] → behind = []) :
    at? (tokens.take first.length ++ behind) 0 = some first := by
  rcases front_cases found with ⟨token, rest, rfl, unknown, rfl⟩ |
    ⟨token, op, rfl, known, takes, rfl⟩ | ⟨token, op, parameter, rest, rfl, known, takes, rfl⟩ |
    ⟨token, op, rest, rfl, known, alone, rfl⟩
  · simp [at?, unknown, length]
  · rw [ended rfl]
    exact found
  · simp [at?, known, takes, length]
  · simp [at?, known, alone, length]

theorem placeFrom_eq_map (address : Nat) (tokens : List Token) :
    placeFrom address tokens =
      (ofTokens tokens).map fun placed => ⟨address + placed.address, placed.instruction⟩ := by
  induction tokens using layout_induction generalizing address with
  | nil => rfl
  | cons tokens first found ih =>
    rw [ofTokens, placeFrom_eq_cons found, placeFrom_eq_cons found, ih, ih (0 + first.length)]
    simp [Nat.add_assoc]

end Instruction

namespace Labels

variable {tokens : List Token} {first : Instruction}

theorem lastDefinition?_eq_or (found : at? tokens 0 = some first) (label : Token) :
    lastDefinition? tokens label =
      ((lastDefinition? (tokens.drop first.length) label).map fun placed =>
        ⟨first.length + placed.address, placed.instruction⟩).or
        (if first.label? = some label then some ⟨0, first⟩ else none) := by
  have later : ((placeFrom (0 + first.length) (tokens.drop first.length)).filter fun placed =>
        placed.instruction.label? = some label).getLast? =
      (lastDefinition? (tokens.drop first.length) label).map fun placed =>
        ⟨first.length + placed.address, placed.instruction⟩ := by
    rw [placeFrom_eq_map, List.filter_map, List.getLast?_map, Nat.zero_add]
    rfl
  rw [lastDefinition?, ofTokens, placeFrom_eq_cons found]
  by_cases defines : first.label? = some label
  · rw [List.filter_cons_of_pos (by simpa using defines), List.getLast?_cons, later, if_pos defines]
    cases lastDefinition? (tokens.drop first.length) label <;> rfl
  · rw [List.filter_cons_of_neg (by simpa using defines), later, if_neg defines, Option.or_none]

def behind? (tokens : List Token) (label : Token) : Option (List Token) :=
  (lastDefinition? tokens label).map fun placed => tokens.drop (placed.address + 2)

theorem behind?_eq_or (found : at? tokens 0 = some first) (label : Token) :
    behind? tokens label =
      (behind? (tokens.drop first.length) label).or
        (if first.label? = some label then some (tokens.drop first.length) else none) := by
  rw [behind?, behind?, lastDefinition?_eq_or found]
  cases lastDefinition? (tokens.drop first.length) label with
  | some placed => simp [List.drop_drop, Nat.add_assoc]
  | none =>
    by_cases defines : first.label? = some label
    · have shape := label?_eq_some_iff.1 defines
      simp [shape, length]
    · simp [defines]

end Labels

namespace Padded

variable {tokens padded : List Token}

theorem eq_nil (pads : Padded [] padded) : padded = [] := by
  generalize empty : ([] : List Token) = tokens at pads
  cases pads with
  | nil => rfl
  | idle named inside rest => exact absurd empty.symm inside
  | instruction found rest =>
    rw [← empty, at?_nil] at found
    contradiction

theorem at?_front {first : Instruction} (found : at? tokens 0 = some first)
    (rest : Padded (tokens.drop first.length) padded) :
    at? (tokens.take first.length ++ padded) 0 = some first := by
  apply at?_take_append found
  intro ended
  rw [ended] at rest
  exact rest.eq_nil

theorem drop_front {first : Instruction} (found : at? tokens 0 = some first) :
    (tokens.take first.length ++ padded).drop first.length = padded :=
  List.drop_left' (List.length_take_of_le (length_le_of_at? found))

theorem any_truncated (pads : Padded tokens padded) (op : Opcode) (address place : Nat) :
    (placeFrom place padded).any (·.instruction == .truncated op) =
      (placeFrom address tokens).any (·.instruction == .truncated op) := by
  induction pads generalizing address place with
  | nil => rfl
  | idle named inside rest ih =>
    rw [placeFrom_eq_cons (at?_idle named _)]
    simp [Instruction.length, ih address]
  | instruction found rest ih =>
    rw [placeFrom_eq_cons (at?_front found rest), placeFrom_eq_cons found, drop_front found,
      List.any_cons, List.any_cons, ih]

/-- From behind the last definition of a label on, the streams are as they are from the front. -/
theorem behind? (pads : Padded tokens padded) (label : Token) :
    Option.Rel Padded (Labels.behind? tokens label) (Labels.behind? padded label) := by
  induction pads with
  | nil => exact .none
  | idle named inside rest ih =>
    rw [Labels.behind?_eq_or (at?_idle named _)]
    simpa [Instruction.length, Instruction.label?] using ih
  | @instruction tokens padded first found rest ih =>
    rw [Labels.behind?_eq_or (at?_front found rest), Labels.behind?_eq_or found, drop_front found]
    by_cases defines : first.label? = some label
    · rw [if_pos defines, if_pos defines]
      generalize Labels.behind? (tokens.drop first.length) label = later at ih ⊢
      generalize Labels.behind? padded label = beside at ih ⊢
      cases ih with
      | none => exact .some rest
      | some further => exact .some further
    · simpa [defines] using ih

def Beside (tokens padded : List Token) (cursor place : Nat) : Prop :=
  Padded (tokens.drop cursor) (padded.drop place)

/-- At two such cursors both streams end, or the second has an idle instruction, or both have the
same one. -/
theorem Beside.next {cursor place : Nat} (beside : Beside tokens padded cursor place) :
    (at? tokens cursor = none ∧ at? padded place = none) ∨
    (at? padded place = some (.plain .nop) ∧ Beside tokens padded cursor (place + 1)) ∨
    ∃ first, at? tokens cursor = some first ∧ at? padded place = some first ∧
      Beside tokens padded (cursor + first.length) (place + first.length) := by
  have own (length : Nat) : tokens.drop (cursor + length) = (tokens.drop cursor).drop length :=
    List.drop_drop.symm
  have other (length : Nat) : padded.drop (place + length) = (padded.drop place).drop length :=
    List.drop_drop.symm
  have here : at? tokens cursor = at? (tokens.drop cursor) 0 := (at?_drop tokens cursor 0).symm
  have there : at? padded place = at? (padded.drop place) 0 := (at?_drop padded place 0).symm
  simp only [Beside, own, other, here, there] at beside ⊢
  generalize tokens.drop cursor = front at beside ⊢
  generalize padded.drop place = back at beside ⊢
  cases beside with
  | nil => exact .inl ⟨rfl, rfl⟩
  | idle named inside rest => exact .inr (.inl ⟨at?_idle named _, rest⟩)
  | instruction found rest =>
    refine .inr (.inr ⟨_, found, at?_front found rest, ?_⟩)
    rwa [drop_front found]

end Padded

end AwaLang
