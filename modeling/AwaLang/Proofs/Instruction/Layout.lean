import AwaLang.Instruction
import AwaLang.Role

namespace AwaLang

namespace Instruction

def length : Instruction → Nat
  | applied _ _ => 2
  | _ => 1

def roles : Instruction → List Role
  | applied _ _ => [.opcode, .parameter]
  | _ => [.opcode]

theorem length_roles (instruction : Instruction) :
    instruction.roles.length = instruction.length := by
  cases instruction <;> rfl

theorem length_pos (instruction : Instruction) : 0 < instruction.length := by
  cases instruction <;> simp [length]

theorem lt_of_at?_eq_some {tokens : List Token} {index : Nat} {instruction : Instruction}
    (found : at? tokens index = some instruction) : index < tokens.length := by
  obtain ⟨token, present, -⟩ := Option.map_eq_some_iff.1 found
  exact (List.getElem?_eq_some_iff.1 present).1

theorem at?_drop (tokens : List Token) (count index : Nat) :
    at? (tokens.drop count) index = at? tokens (count + index) := by
  simp only [at?, List.getElem?_drop, Nat.add_assoc]

theorem exists_at?_of_lt {tokens : List Token} {index : Nat} (inside : index < tokens.length) :
    ∃ instruction, at? tokens index = some instruction := by
  rw [at?, List.getElem?_eq_getElem inside]
  exact ⟨_, rfl⟩

inductive Stands (tokens : List Token) (index : Nat) : Instruction → Prop
  | unknown {token : Token} (present : tokens[index]? = some token)
      (undecoded : Opcode.decode token = none) : Stands tokens index (.unknown token)
  | plain {token : Token} {op : Opcode} (present : tokens[index]? = some token)
      (decoded : Opcode.decode token = some op) (alone : op.takesParameter = false) :
      Stands tokens index (.plain op)
  | truncated {token : Token} {op : Opcode} (present : tokens[index]? = some token)
      (decoded : Opcode.decode token = some op) (takes : op.takesParameter = true)
      (ended : tokens[index + 1]? = none) : Stands tokens index (.truncated op)
  | applied {token parameter : Token} {op : Opcode} (present : tokens[index]? = some token)
      (decoded : Opcode.decode token = some op) (takes : op.takesParameter = true)
      (behind : tokens[index + 1]? = some parameter) : Stands tokens index (.applied op parameter)

section Standing

variable {tokens : List Token} {index : Nat} {token parameter : Token} {op : Opcode}

theorem at?_eq_plain (present : tokens[index]? = some token)
    (decoded : Opcode.decode token = some op) (alone : op.takesParameter = false) :
    at? tokens index = some (.plain op) := by
  simp [at?, present, decoded, alone]

theorem at?_eq_applied (present : tokens[index]? = some token)
    (decoded : Opcode.decode token = some op) (takes : op.takesParameter = true)
    (behind : tokens[index + 1]? = some parameter) :
    at? tokens index = some (.applied op parameter) := by
  simp [at?, present, decoded, takes, behind]

theorem at?_eq_truncated (present : tokens[index]? = some token)
    (decoded : Opcode.decode token = some op) (takes : op.takesParameter = true)
    (ended : tokens[index + 1]? = none) : at? tokens index = some (.truncated op) := by
  simp [at?, present, decoded, takes, ended]

theorem at?_eq_some_iff {instruction : Instruction} :
    at? tokens index = some instruction ↔ Stands tokens index instruction := by
  constructor
  · intro found
    obtain ⟨token, present, shape⟩ := Option.map_eq_some_iff.1 found
    split at shape
    · rename_i undecoded
      exact shape ▸ .unknown present undecoded
    · rename_i op decoded
      split at shape
      · rename_i takes
        split at shape
        · rename_i ended
          exact shape ▸ .truncated present decoded takes ended
        · rename_i parameter behind
          exact shape ▸ .applied present decoded takes behind
      · rename_i alone
        exact shape ▸ .plain present decoded (Bool.eq_false_iff.2 alone)
  · intro stands
    cases stands with
    | unknown present undecoded => simp [at?, present, undecoded]
    | plain present decoded alone => exact at?_eq_plain present decoded alone
    | truncated present decoded takes ended => exact at?_eq_truncated present decoded takes ended
    | applied present decoded takes behind => exact at?_eq_applied present decoded takes behind

theorem takesParameter_of_at?_plain (found : at? tokens index = some (.plain op)) :
    op.takesParameter = false := by
  cases at?_eq_some_iff.1 found with
  | plain present decoded alone => exact alone

theorem takesParameter_of_at?_applied (found : at? tokens index = some (.applied op parameter)) :
    op.takesParameter = true := by
  cases at?_eq_some_iff.1 found with
  | applied present decoded takes behind => exact takes

theorem at?_eq_applied_iff :
    at? tokens index = some (.applied op parameter) ↔
      tokens[index]?.bind Opcode.decode = some op ∧ op.takesParameter = true ∧
        tokens[index + 1]? = some parameter := by
  constructor
  · intro found
    cases at?_eq_some_iff.1 found with
    | applied present decoded takes behind =>
      exact ⟨Option.bind_eq_some_iff.2 ⟨_, present, decoded⟩, takes, behind⟩
  · rintro ⟨operation, takes, behind⟩
    obtain ⟨token, present, decoded⟩ := Option.bind_eq_some_iff.1 operation
    exact at?_eq_applied present decoded takes behind

theorem at?_eq_truncated_iff :
    at? tokens index = some (.truncated op) ↔
      tokens[index]?.bind Opcode.decode = some op ∧ op.takesParameter = true ∧
        tokens.length = index + 1 := by
  constructor
  · intro found
    have inside := lt_of_at?_eq_some found
    cases at?_eq_some_iff.1 found with
    | truncated present decoded takes ended =>
      have past := List.getElem?_eq_none_iff.1 ended
      exact ⟨Option.bind_eq_some_iff.2 ⟨_, present, decoded⟩, takes, Nat.le_antisymm past inside⟩
  · rintro ⟨operation, takes, length⟩
    obtain ⟨token, present, decoded⟩ := Option.bind_eq_some_iff.1 operation
    exact at?_eq_truncated present decoded takes (List.getElem?_eq_none_iff.2 (Nat.le_of_eq length))

end Standing

theorem front_cases {tokens : List Token} {first : Instruction}
    (found : at? tokens 0 = some first) :
    (∃ token rest, tokens = token :: rest ∧ Opcode.decode token = none ∧ first = unknown token) ∨
    (∃ token op, tokens = [token] ∧ Opcode.decode token = some op ∧ op.takesParameter = true ∧
      first = truncated op) ∨
    (∃ token op parameter rest, tokens = token :: parameter :: rest ∧
      Opcode.decode token = some op ∧ op.takesParameter = true ∧ first = applied op parameter) ∨
    ∃ token op rest, tokens = token :: rest ∧ Opcode.decode token = some op ∧
      op.takesParameter = false ∧ first = plain op := by
  fun_cases placeFrom 0 tokens with
  | case1 => contradiction
  | case2 token rest unknown =>
    have same : .unknown token = first := by simpa [at?, unknown] using found
    exact .inl ⟨token, rest, rfl, unknown, same.symm⟩
  | case3 token op known takes =>
    have same : .truncated op = first := by simpa [at?, known, takes] using found
    exact .inr (.inl ⟨token, op, rfl, known, takes, same.symm⟩)
  | case4 token op known takes parameter rest =>
    have same : .applied op parameter = first := by simpa [at?, known, takes] using found
    exact .inr (.inr (.inl ⟨token, op, parameter, rest, rfl, known, takes, same.symm⟩))
  | case5 token rest op known plain =>
    have alone : op.takesParameter = false := Bool.eq_false_iff.2 plain
    have same : .plain op = first := by simpa [at?, known, alone] using found
    exact .inr (.inr (.inr ⟨token, op, rest, rfl, known, alone, same.symm⟩))

theorem placeFrom_eq_cons {tokens : List Token} {first : Instruction}
    (found : at? tokens 0 = some first) (address : Nat) :
    placeFrom address tokens =
      ⟨address, first⟩ :: placeFrom (address + first.length) (tokens.drop first.length) := by
  rcases front_cases found with ⟨token, rest, rfl, unknown, rfl⟩ |
    ⟨token, op, rfl, known, takes, rfl⟩ | ⟨token, op, parameter, rest, rfl, known, takes, rfl⟩ |
    ⟨token, op, rest, rfl, known, alone, rfl⟩
  · simp [placeFrom, unknown, length]
  · simp [placeFrom, known, takes, length]
  · simp [placeFrom, known, takes, length]
  · simp [placeFrom, known, alone, length]

theorem roles_assign {tokens : List Token} {first : Instruction}
    (found : at? tokens 0 = some first) :
    (Role.assign .opcode tokens).map Prod.fst =
      first.roles ++ (Role.assign .opcode (tokens.drop first.length)).map Prod.fst := by
  rcases front_cases found with ⟨token, rest, rfl, unknown, rfl⟩ |
    ⟨token, op, rfl, known, takes, rfl⟩ | ⟨token, op, parameter, rest, rfl, known, takes, rfl⟩ |
    ⟨token, op, rest, rfl, known, alone, rfl⟩
  · simp [Role.assign, Role.next, unknown, roles, length]
  · simp [Role.assign, roles, length]
  · simp [Role.assign, Role.next, known, takes, roles, length]
  · simp [Role.assign, Role.next, known, alone, roles, length]

@[elab_as_elim]
theorem layout_induction {motive : List Token → Prop} (nil : motive [])
    (cons : ∀ (tokens : List Token) (first : Instruction), at? tokens 0 = some first →
      motive (tokens.drop first.length) → motive tokens) (tokens : List Token) : motive tokens := by
  rcases Nat.eq_zero_or_pos tokens.length with empty | inside
  · exact List.eq_nil_of_length_eq_zero empty ▸ nil
  · obtain ⟨first, found⟩ := exists_at?_of_lt inside
    exact cons tokens first found (layout_induction nil cons (tokens.drop first.length))
termination_by tokens.length
decreasing_by
  have positive := first.length_pos
  rw [List.length_drop]
  omega

/-- What the walk from the front finds at an address is what is found there directly. -/
theorem at?_of_mem_placeFrom {address : Nat} {tokens : List Token} {placed : Placed}
    (member : placed ∈ placeFrom address tokens) :
    ∃ index, placed.address = address + index ∧ at? tokens index = some placed.instruction := by
  induction tokens using layout_induction generalizing address with
  | nil => contradiction
  | cons tokens first found ih =>
    rw [placeFrom_eq_cons found] at member
    rcases List.mem_cons.1 member with rfl | later
    · exact ⟨0, rfl, found⟩
    · obtain ⟨index, place, there⟩ := ih later
      rw [at?_drop] at there
      exact ⟨first.length + index, by omega, there⟩

theorem at?_of_mem_ofTokens {tokens : List Token} {placed : Placed}
    (member : placed ∈ ofTokens tokens) : at? tokens placed.address = some placed.instruction := by
  obtain ⟨index, place, found⟩ := at?_of_mem_placeFrom member
  rw [place, Nat.zero_add]
  exact found

theorem exists_mem_placeFrom {tokens : List Token} (inside : 0 < tokens.length) (address : Nat) :
    ∃ first ∈ placeFrom address tokens, first.address = address := by
  obtain ⟨first, found⟩ := exists_at?_of_lt inside
  rw [placeFrom_eq_cons found]
  exact ⟨⟨address, first⟩, List.mem_cons_self, rfl⟩

theorem next_of_mem_placeFrom {address : Nat} {tokens : List Token} {placed : Placed}
    (member : placed ∈ placeFrom address tokens) :
    (∃ next ∈ placeFrom address tokens,
      next.address = placed.address + placed.instruction.length) ∨
    address + tokens.length ≤ placed.address + placed.instruction.length := by
  induction tokens using layout_induction generalizing address with
  | nil => contradiction
  | cons tokens first found ih =>
    rw [placeFrom_eq_cons found] at member ⊢
    have rest : (tokens.drop first.length).length = tokens.length - first.length :=
      List.length_drop
    rcases List.mem_cons.1 member with rfl | later
    · rcases Nat.eq_zero_or_pos (tokens.drop first.length).length with ended | more
      · right
        change address + tokens.length ≤ address + first.length
        omega
      · left
        obtain ⟨next, inside, place⟩ := exists_mem_placeFrom more (address + first.length)
        exact ⟨next, List.mem_cons_of_mem _ inside, place⟩
    · rcases ih later with ⟨next, inside, place⟩ | ended
      · exact .inl ⟨next, List.mem_cons_of_mem _ inside, place⟩
      · right
        omega

theorem roles_of_mem_placeFrom {address : Nat} {tokens : List Token} {placed : Placed}
    (member : placed ∈ placeFrom address tokens) :
    ∃ index, placed.address = address + index ∧
      placed.instruction.roles <+: ((Role.assign .opcode tokens).map Prod.fst).drop index := by
  induction tokens using layout_induction generalizing address with
  | nil => contradiction
  | cons tokens first found ih =>
    rw [placeFrom_eq_cons found] at member
    rw [roles_assign found]
    rcases List.mem_cons.1 member with rfl | later
    · exact ⟨0, rfl, List.prefix_append first.roles _⟩
    · obtain ⟨index, place, roles⟩ := ih later
      refine ⟨first.length + index, by omega, ?_⟩
      rwa [← length_roles, List.drop_length_add_append, length_roles]

end Instruction

end AwaLang
