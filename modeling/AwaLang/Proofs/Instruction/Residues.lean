import AwaLang.Proofs.Labels
import AwaLang.Proofs.Listing

namespace AwaLang

/-- Streams with the same parameters, and with operations that are the same modulo 32. -/
structure Congruent (tokens other : List Token) : Prop where
  length : tokens.length = other.length
  parameters : ∀ index, isParameter tokens index = true → tokens[index]? = other[index]?
  operations : ∀ index, isParameter tokens index = false →
    tokens[index]?.map (· % 32) = other[index]?.map (· % 32)

instance (tokens other : List Token) : Decidable (Congruent tokens other) :=
  decidable_of_iff
    (tokens.length = other.length ∧ ∀ index < tokens.length,
      if isParameter tokens index then tokens[index]? = other[index]?
      else tokens[index]?.map (· % 32) = other[index]?.map (· % 32)) <| by
    constructor
    · intro checked
      obtain ⟨length, checked⟩ := checked
      -- Behind the end neither stream has a token.
      have past {index : Nat} (ended : ¬ index < tokens.length) :
          tokens[index]? = none ∧ other[index]? = none :=
        ⟨List.getElem?_eq_none (by omega), List.getElem?_eq_none (by omega)⟩
      refine ⟨length, fun index own => ?_, fun index plain => ?_⟩
      all_goals
        by_cases inside : index < tokens.length
        · simpa [*] using checked index inside
        · rw [(past inside).1, (past inside).2]
    · intro congruent
      refine ⟨congruent.length, fun index inside => ?_⟩
      cases own : isParameter tokens index with
      | true => exact congruent.parameters index own
      | false => exact congruent.operations index own

namespace Opcode

theorem decode_emod (token : Token) : decode (token % 32) = decode token :=
  decode_eq_of_emod_eq (Int.emod_emod token 32)

theorem nameOf_emod (token : Token) : nameOf (token % 32) = nameOf token := by
  rw [nameOf, nameOf, decode_emod, Int.emod_emod]

end Opcode

namespace Instruction

def residue : Instruction → Instruction
  | unknown token => unknown (token % 32)
  | plain op => plain op
  | applied op parameter => applied op parameter
  | truncated op => truncated op

theorem label?_residue (instruction : Instruction) :
    instruction.residue.label? = instruction.label? := by
  cases instruction <;> rfl

theorem target?_residue (instruction : Instruction) :
    instruction.residue.target? = instruction.target? := by
  cases instruction <;> rfl

theorem residue_eq_truncated_iff {instruction : Instruction} {op : Opcode} :
    instruction.residue = .truncated op ↔ instruction = .truncated op := by
  cases instruction <;> simp [residue]

theorem eq_or_unknown_of_residue_eq {instruction other : Instruction}
    (same : instruction.residue = other.residue) :
    instruction = other ∨ ∃ token second, instruction = .unknown token ∧ other = .unknown second ∧
      token % 32 = second % 32 := by
  cases instruction <;> cases other <;> simp_all [residue]

def Placed.residue (placed : Placed) : Placed := ⟨placed.address, placed.instruction.residue⟩

end Instruction

open Instruction

namespace Congruent

variable {tokens other : List Token} {index : Nat}

theorem bind_decode (congruent : Congruent tokens other)
    (plain : isParameter tokens index = false) :
    tokens[index]?.bind Opcode.decode = other[index]?.bind Opcode.decode := by
  have reduce (found : Option Token) :
      (found.map (· % 32)).bind Opcode.decode = found.bind Opcode.decode := by
    cases found with
    | none => rfl
    | some token => exact Opcode.decode_emod token
  rw [← reduce, congruent.operations index plain, reduce]

theorem isParameter_eq (congruent : Congruent tokens other) (index : Nat) :
    isParameter tokens index = isParameter other index := by
  induction index with
  | zero => rfl
  | succ index ih =>
    rw [isParameter, isParameter, ← ih]
    cases own : isParameter tokens index with
    | true => rfl
    | false => rw [congruent.bind_decode own]

theorem operationIndices_eq (congruent : Congruent tokens other) :
    operationIndices tokens = operationIndices other := by
  rw [operationIndices, operationIndices, congruent.length]
  simp only [congruent.isParameter_eq]

theorem map_at?_eq (congruent : Congruent tokens other)
    (plain : isParameter tokens index = false) :
    (at? tokens index).map residue = (at? other index).map residue := by
  have here := congruent.operations index plain
  rw [at?, at?]
  cases present : tokens[index]? with
  | none =>
    rw [present, Option.map_none, eq_comm, Option.map_eq_none_iff] at here
    rw [here]
    rfl
  | some token =>
    rw [present, Option.map_some, eq_comm, Option.map_eq_some_iff] at here
    obtain ⟨second, there, same⟩ := here
    have decoded := Opcode.decode_eq_of_emod_eq same
    simp only [there, Option.map_some, decoded]
    cases known : Opcode.decode token with
    | none => simp [residue, same]
    | some op =>
      cases takes : op.takesParameter with
      | false => simp [takes]
      | true =>
        -- The parameter stands next, and parameters are the same in both streams.
        have own : isParameter tokens (index + 1) = true := by
          simp [isParameter, plain, present, known, takes]
        simp only [takes, if_true, congruent.parameters (index + 1) own]

theorem map_ofTokens_eq (congruent : Congruent tokens other) :
    (ofTokens tokens).map Placed.residue = (ofTokens other).map Placed.residue := by
  have place (index : Nat) (found : Option Instruction) :
      (found.map (Placed.mk index)).map Placed.residue =
        (found.map residue).map (Placed.mk index) := by
    cases found <;> rfl
  rw [ofTokens_eq_filterMap, ofTokens_eq_filterMap, List.map_filterMap, List.map_filterMap,
    congruent.operationIndices_eq]
  apply List.filterMap_congr
  intro index member
  have plain := (mem_operationIndices.1 member).2
  rw [← congruent.isParameter_eq] at plain
  rw [place, place, congruent.map_at?_eq plain]

end Congruent

theorem Labels.ofTokens?_eq_residue (tokens : List Token) :
    ofTokens? tokens =
      if ((ofTokens tokens).map Placed.residue).any (·.instruction == .truncated .lbl) then none
      else some (((ofTokens tokens).map Placed.residue).foldl record empty) := by
  have cut : (fun placed : Placed => placed.residue.instruction == .truncated .lbl) =
      fun placed => placed.instruction == .truncated .lbl := by
    funext placed
    rw [Bool.eq_iff_iff, beq_iff_eq, beq_iff_eq]
    exact residue_eq_truncated_iff
  have same (labels : Labels) (placed : Placed) :
      labels.record placed.residue = labels.record placed := by
    rw [record, record, Placed.residue, label?_residue]
  rw [ofTokens?, List.any_map, List.foldl_map, Function.comp_def, cut]
  simp only [same]

namespace Listing

theorem targets_eq_residue (tokens : List Token) :
    targets tokens =
      ((ofTokens tokens).map Placed.residue).filterMap (·.instruction.target?) := by
  rw [targets, List.filterMap_map]
  congr
  funext placed
  exact (target?_residue placed.instruction).symm

theorem line_residue (targets : List Token) (placed : Placed) :
    line targets placed.residue = line targets placed := by
  have shown : code placed.instruction.residue = code placed.instruction := by
    cases placed.instruction with
    | unknown token =>
      change "??? ; invalid code ".toList ++ Opcode.nameOf (token % 32) =
        "??? ; invalid code ".toList ++ Opcode.nameOf token
      rw [Opcode.nameOf_emod]
    | plain | applied | truncated => rfl
  rw [line, line, marker, marker, Placed.residue, label?_residue, shown]

theorem lines_eq_residue (tokens : List Token) :
    lines tokens = ((ofTokens tokens).map Placed.residue).map (line (targets tokens)) := by
  rw [lines, List.map_map]
  apply List.map_congr_left
  intro placed _
  exact (line_residue (targets tokens) placed).symm

end Listing

namespace Congruent

variable {tokens other : List Token}

theorem labels_eq (congruent : Congruent tokens other) :
    Labels.ofTokens? tokens = Labels.ofTokens? other := by
  rw [Labels.ofTokens?_eq_residue, Labels.ofTokens?_eq_residue, congruent.map_ofTokens_eq]

theorem render_eq (congruent : Congruent tokens other) :
    Listing.render tokens = Listing.render other := by
  rw [Listing.render, Listing.render, Listing.lines_eq_residue, Listing.lines_eq_residue,
    Listing.targets_eq_residue, Listing.targets_eq_residue, congruent.map_ofTokens_eq]

end Congruent

end AwaLang
