import AwaLang.Assembly
import AwaLang.Proofs.Except
import AwaLang.Proofs.Instruction.Tokens
import AwaLang.Proofs.Text.Pieces
import Mathlib.Data.List.Forall2

namespace AwaLang

theorem Opcode.decode_natCast {code : Nat} (small : code < 32) :
    decode (code : Token) = ofCode? code := by
  have same : ((code : Token) % 32).toNat = code := by omega
  rw [decode, same]

namespace Assembly

variable {line : List Char} {part : List Token}

def isBlankLine (line : List Char) : Bool := (line.takeWhile (· != ';')).all Text.isBlank

theorem wordsOf_eq_nil_iff : wordsOf line = [] ↔ isBlankLine line := Text.words_eq_nil_iff

theorem code?_lt {name : List Char} {code : Nat} (found : code? name = some code) : code < 32 := by
  rw [code?] at found
  cases known : Opcode.ofMnemonic? name with
  | some op =>
    have same : op.code = code := by simpa [known] using found
    exact same ▸ op.code_lt
  | none =>
    have number : Text.natural? 32 name = some code := by simpa [known] using found
    unfold Text.natural? at number
    split at number
    · simpa using (Option.filter_eq_some_iff.1 number).2
    · simpa using (Option.filter_eq_some_iff.1 number).2

section Operand

variable {name : List Char} {code : Nat} {operand : Option (List Char)}

theorem instruction_of_takes (named : code? name = some code) {op : Opcode}
    (known : Opcode.ofCode? code = some op) (takes : op.takesParameter = true) :
    instruction name operand =
      match operand with
      | some text => (operandOf text).map fun parameter => [(code : Token), parameter]
      | none => .error (.missingOperand op) := by
  rw [instruction, named]
  cases operand <;> simp [known, Option.filter_some, takes]

theorem instruction_of_alone (named : code? name = some code)
    (alone : (Opcode.ofCode? code).filter Opcode.takesParameter = none) :
    instruction name operand =
      match operand with
      | some text => .error (.unexpectedOperand text)
      | none => .ok [(code : Token)] := by
  rw [instruction, named]
  cases operand <;> simp [alone]

theorem exists_standard_of_instruction (assembled : instruction name operand = .ok part) :
    ∃ made : Instruction, made.IsStandard ∧ made.tokens = part := by
  cases named : code? name with
  | none => simp [instruction, named] at assembled
  | some code =>
    have decoded := Opcode.decode_natCast (code?_lt named)
    cases known : Opcode.ofCode? code with
    | none =>
      have same : (code : Token) % 32 = code :=
        Int.emod_eq_of_lt (Int.natCast_nonneg code) (Int.ofNat_lt.2 (code?_lt named))
      rw [instruction_of_alone named (by simp [known])] at assembled
      cases operand with
      | some text => contradiction
      | none =>
        refine ⟨.unknown code, ⟨decoded.trans known, same⟩, ?_⟩
        rw [Instruction.tokens, same]
        exact Except.ok.inj assembled
    | some op =>
      have own := Opcode.code_of_ofCode? known
      cases takes : op.takesParameter with
      | false =>
        rw [instruction_of_alone named (by simp [known, Option.filter_some, takes])] at assembled
        cases operand with
        | some text => contradiction
        | none =>
          refine ⟨.plain op, takes, ?_⟩
          rw [Instruction.tokens, own]
          exact Except.ok.inj assembled
      | true =>
        rw [instruction_of_takes named known takes] at assembled
        cases operand with
        | none => contradiction
        | some text =>
          obtain ⟨parameter, -, rfl⟩ := exists_of_map_eq_ok assembled
          refine ⟨.applied op parameter, takes, ?_⟩
          rw [Instruction.tokens, own]

end Operand

theorem assembleLine_cases (assembled : assembleLine line = .ok part) :
    (isBlankLine line ∧ part = []) ∨
    (isBlankLine line = false ∧ ∃ made : Instruction, made.IsStandard ∧ made.tokens = part) := by
  have blank := @wordsOf_eq_nil_iff line
  rw [assembleLine] at assembled
  split at assembled
  · rename_i none
    exact .inl ⟨blank.1 none, (Except.ok.inj assembled).symm⟩
  · rename_i name one
    refine .inr ⟨?_, exists_standard_of_instruction assembled⟩
    simp [← Bool.not_eq_true, ← blank, one]
  · rename_i name operand two
    refine .inr ⟨?_, exists_standard_of_instruction assembled⟩
    simp [← Bool.not_eq_true, ← blank, two]
  · contradiction

theorem assembleLines_eq_ok_iff {number : Nat} {lines : List (List Char)} {tokens : List Token} :
    assembleLines number lines = .ok tokens ↔
      ∃ parts, List.Forall₂ (fun line part => assembleLine line = .ok part) lines parts ∧
        parts.flatten = tokens := by
  constructor
  · intro assembled
    induction lines generalizing number tokens with
    | nil => exact ⟨[], .nil, Except.ok.inj assembled⟩
    | cons line lines ih =>
      rw [assembleLines] at assembled
      cases first : assembleLine line with
      | error cause => simp [first] at assembled
      | ok part =>
        simp only [first] at assembled
        obtain ⟨rest, later, rfl⟩ := exists_of_map_eq_ok assembled
        obtain ⟨parts, each, rfl⟩ := ih later
        exact ⟨part :: parts, .cons first each, rfl⟩
  · rintro ⟨parts, each, rfl⟩
    induction each generalizing number with
    | nil => rfl
    | cons first later ih =>
      rw [assembleLines, first]
      simp [ih, Except.map]

theorem exists_instructions {number : Nat} {lines : List (List Char)} {tokens : List Token}
    (assembled : assembleLines number lines = .ok tokens) :
    ∃ instructions : List Instruction, (∀ made ∈ instructions, made.IsStandard) ∧
      tokens = instructions.flatMap Instruction.tokens ∧
      instructions.length = lines.countP (!isBlankLine ·) := by
  obtain ⟨parts, each, rfl⟩ := assembleLines_eq_ok_iff.1 assembled
  clear assembled
  induction each with
  | nil => exact ⟨[], List.forall_mem_nil _, rfl, rfl⟩
  | @cons line part lines parts first later ih =>
    obtain ⟨instructions, standard, whole, count⟩ := ih
    rcases assembleLine_cases first with ⟨blank, rfl⟩ | ⟨written, made, own, rfl⟩
    · refine ⟨instructions, standard, whole, ?_⟩
      rw [List.countP_cons_of_neg (by simp [blank]), count]
    · refine ⟨made :: instructions, List.forall_mem_cons.2 ⟨own, standard⟩, ?_, ?_⟩
      · rw [List.flatten_cons, whole, List.flatMap_cons]
      · rw [List.countP_cons_of_pos (by simp [written]), List.length_cons, count]

end Assembly

end AwaLang
