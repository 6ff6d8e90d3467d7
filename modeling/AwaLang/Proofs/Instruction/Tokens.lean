import AwaLang.Proofs.Instruction.Parameters

namespace AwaLang

theorem Opcode.emod_of_decode {token : Token} {op : Opcode} (known : decode token = some op) :
    token % 32 = op.code := by
  rw [code_of_ofCode? known]
  exact (Int.toNat_of_nonneg (Int.emod_nonneg token (by decide))).symm

theorem Opcode.decode_code (op : Opcode) : decode op.code = some op := by
  cases op <;> decide

/-- The stream with its operations reduced to five bits, and its parameters as they are. -/
def reduced (tokens : List Token) : List Token :=
  tokens.mapIdx fun index token => if isParameter tokens index then token else token % 32

theorem reduced_append {front rest : List Token}
    (plain : isParameter (front ++ rest) front.length = false) :
    reduced (front ++ rest) =
      (front.mapIdx fun index token =>
        if isParameter (front ++ rest) index then token else token % 32) ++ reduced rest := by
  have behind (index : Nat) :
      isParameter (front ++ rest) (index + front.length) = isParameter rest index := by
    rw [Nat.add_comm, Instruction.isParameter_add plain, List.drop_left]
  rw [reduced, List.mapIdx_append, reduced]
  simp only [behind]

namespace Instruction

def tokens : Instruction → List Token
  | plain op | truncated op => [(op.code : Token)]
  | applied op parameter => [(op.code : Token), parameter]
  | unknown token => [token % 32]

theorem length_tokens (instruction : Instruction) :
    instruction.tokens.length = instruction.length := by
  cases instruction <;> rfl

def IsComplete : Instruction → Prop
  | plain _ | applied _ _ => True
  | truncated _ | unknown _ => False

/-- The instruction is the one that its tokens are read as, whatever is written behind them. -/
def IsStandard : Instruction → Prop
  | plain op => op.takesParameter = false
  | applied op _ => op.takesParameter = true
  | truncated _ => False
  | unknown token => Opcode.decode token = none ∧ token % 32 = token

theorem IsStandard.ne_truncated {instruction : Instruction} (standard : instruction.IsStandard)
    (op : Opcode) : instruction ≠ .truncated op := by
  rintro rfl
  exact standard

theorem IsComplete.isStandard {tokens : List Token} {index : Nat} {instruction : Instruction}
    (complete : instruction.IsComplete) (found : at? tokens index = some instruction) :
    instruction.IsStandard := by
  have front : at? (tokens.drop index) 0 = some instruction := by
    rw [at?_drop]
    exact found
  rcases front_cases front with ⟨token, rest, -, unknown, rfl⟩ | ⟨token, op, -, -, -, rfl⟩ |
    ⟨token, op, parameter, rest, -, -, takes, rfl⟩ | ⟨token, op, rest, -, -, alone, rfl⟩
  · exact absurd complete id
  · exact absurd complete id
  · exact takes
  · exact alone

theorem mem_of_at?_applied {tokens : List Token} {index : Nat} {op : Opcode} {parameter : Token}
    (found : at? tokens index = some (.applied op parameter)) : parameter ∈ tokens :=
  List.mem_of_getElem? (at?_eq_applied_iff.1 found).2.2

theorem at?_tokens_append {first : Instruction} (standard : first.IsStandard) (rest : List Token) :
    at? (first.tokens ++ rest) 0 = some first := by
  cases first with
  | plain op =>
    have alone : op.takesParameter = false := standard
    simp [at?, tokens, Opcode.decode_code, alone]
  | applied op parameter =>
    have takes : op.takesParameter = true := standard
    simp [at?, tokens, Opcode.decode_code, takes]
  | truncated op => exact absurd standard id
  | unknown token =>
    obtain ⟨unknown, same⟩ := standard
    simp [at?, tokens, unknown, same]

theorem placeFrom_flatMap {instructions : List Instruction}
    (standard : ∀ instruction ∈ instructions, instruction.IsStandard) (address : Nat) :
    (placeFrom address (instructions.flatMap tokens)).map Placed.instruction = instructions := by
  induction instructions generalizing address with
  | nil => rfl
  | cons first instructions ih =>
    rw [List.forall_mem_cons] at standard
    have behind : (first.tokens ++ instructions.flatMap tokens).drop first.length =
        instructions.flatMap tokens := by
      rw [← length_tokens, List.drop_left]
    rw [List.flatMap_cons, placeFrom_eq_cons (at?_tokens_append standard.1 _), behind,
      List.map_cons, ih standard.2]

theorem reduced_eq_append {tokens : List Token} {first : Instruction}
    (found : at? tokens 0 = some first) :
    reduced tokens = first.tokens ++ reduced (tokens.drop first.length) := by
  rcases front_cases found with ⟨token, rest, rfl, unknown, rfl⟩ |
    ⟨token, op, rfl, known, takes, rfl⟩ | ⟨token, op, parameter, rest, rfl, known, takes, rfl⟩ |
    ⟨token, op, rest, rfl, known, alone, rfl⟩
  · have plain : isParameter ([token] ++ rest) 1 = false := by simp [isParameter, unknown]
    exact reduced_append plain
  · calc
      reduced [token] = [token % 32] := rfl
      _ = _ := by rw [Opcode.emod_of_decode known]; rfl
  · have own : isParameter ([token, parameter] ++ rest) 1 = true := by
      simp [isParameter, known, takes]
    have plain : isParameter ([token, parameter] ++ rest) 2 = false := by
      rw [isParameter, own]
      rfl
    calc
      reduced ([token, parameter] ++ rest) = [token % 32, parameter] ++ reduced rest := by
        rw [reduced_append plain, List.mapIdx_cons, List.mapIdx_cons, List.mapIdx_nil, if_pos own]
        rfl
      _ = _ := by rw [Opcode.emod_of_decode known]; rfl
  · have plain : isParameter ([token] ++ rest) 1 = false := by simp [isParameter, known, alone]
    calc
      reduced ([token] ++ rest) = [token % 32] ++ reduced rest := reduced_append plain
      _ = _ := by rw [Opcode.emod_of_decode known]; rfl

/-- A stream, reduced, is what its instructions are written with. -/
theorem reduced_eq_flatMap (address : Nat) (tokens : List Token) :
    reduced tokens = (placeFrom address tokens).flatMap (·.instruction.tokens) := by
  induction tokens using layout_induction generalizing address with
  | nil => rfl
  | cons tokens first found ih =>
    rw [placeFrom_eq_cons found, List.flatMap_cons, reduced_eq_append found, ih]

theorem reduced_flatMap {instructions : List Instruction}
    (standard : ∀ instruction ∈ instructions, instruction.IsStandard) :
    reduced (instructions.flatMap tokens) = instructions.flatMap tokens := by
  calc
    reduced (instructions.flatMap tokens) =
        ((placeFrom 0 (instructions.flatMap tokens)).map Placed.instruction).flatMap tokens := by
      rw [reduced_eq_flatMap 0, List.flatMap_map]
    _ = instructions.flatMap tokens := by rw [placeFrom_flatMap standard]

end Instruction

end AwaLang
