import AwaLang.Proofs.Labels
import Mathlib.Data.Set.Function

/-!
Other names for labels. A map is applied to the labels that the instructions of a stream define or
jump to, and to no other token. The instructions are then the same but for their labels, and so is
the table of labels, as long as the map tells the labels of the stream apart.
-/

namespace AwaLang

def Opcode.namesLabel (op : Opcode) : Bool := op == lbl || op.isJump

theorem Opcode.takesParameter_of_namesLabel {op : Opcode} (names : op.namesLabel = true) :
    op.takesParameter = true := by
  rcases Bool.or_eq_true_iff.1 names with label | jump
  · rw [eq_of_beq label]
    rfl
  · exact takesParameter_of_isJump jump

def isLabel (tokens : List Token) (index : Nat) : Bool :=
  isParameter tokens index && (tokens[index - 1]?.bind Opcode.decode).any Opcode.namesLabel

def relabel (rename : Token → Token) (tokens : List Token) : List Token :=
  tokens.mapIdx fun index token => if isLabel tokens index then rename token else token

variable {rename : Token → Token} {tokens : List Token} {index : Nat}

@[simp] theorem length_relabel : (relabel rename tokens).length = tokens.length :=
  List.length_mapIdx

theorem getElem?_relabel :
    (relabel rename tokens)[index]? =
      tokens[index]?.map fun token => if isLabel tokens index then rename token else token :=
  List.getElem?_mapIdx

theorem getElem?_relabel_of_operation (plain : isParameter tokens index = false) :
    (relabel rename tokens)[index]? = tokens[index]? := by
  simp [getElem?_relabel, isLabel, plain]

theorem getElem?_relabel_succ {token : Token} {op : Opcode}
    (plain : isParameter tokens index = false) (present : tokens[index]? = some token)
    (known : Opcode.decode token = some op) (takes : op.takesParameter = true) :
    (relabel rename tokens)[index + 1]? =
      tokens[index + 1]?.map fun parameter =>
        if op.namesLabel then rename parameter else parameter := by
  have own : isParameter tokens (index + 1) = true := by
    simp [isParameter, plain, present, known, takes]
  have label : isLabel tokens (index + 1) = op.namesLabel := by
    simp [isLabel, own, present, known]
  rw [getElem?_relabel, label]

theorem isParameter_relabel (index : Nat) :
    isParameter (relabel rename tokens) index = isParameter tokens index := by
  induction index with
  | zero => rfl
  | succ index ih =>
    cases own : isParameter tokens index with
    | true => simp [isParameter, ih, own]
    | false => simp [isParameter, ih, own, getElem?_relabel_of_operation own]

namespace Instruction

def relabel (rename : Token → Token) : Instruction → Instruction
  | applied op parameter => applied op (if op.namesLabel then rename parameter else parameter)
  | plain op => plain op
  | truncated op => truncated op
  | unknown token => unknown token

def name? : Instruction → Option Token
  | applied op parameter => if op.namesLabel then some parameter else none
  | _ => none

theorem at?_relabel (plain : isParameter tokens index = false) :
    at? (AwaLang.relabel rename tokens) index = (at? tokens index).map (relabel rename) := by
  rw [at?, at?, getElem?_relabel_of_operation plain]
  cases present : tokens[index]? with
  | none => rfl
  | some token =>
    cases known : Opcode.decode token with
    | none => simp [known, relabel]
    | some op =>
      cases takes : op.takesParameter with
      | false => simp [known, takes, relabel]
      | true =>
        have behind := @getElem?_relabel_succ rename _ _ _ _ plain present known takes
        cases following : tokens[index + 1]? with
        | none => simp [known, takes, behind, following, relabel]
        | some parameter => simp [known, takes, behind, following, relabel]

theorem operationIndices_relabel :
    operationIndices (AwaLang.relabel rename tokens) = operationIndices tokens := by
  simp [operationIndices, isParameter_relabel]

theorem ofTokens_relabel :
    ofTokens (AwaLang.relabel rename tokens) =
      (ofTokens tokens).map fun placed => ⟨placed.address, placed.instruction.relabel rename⟩ := by
  rw [ofTokens_eq_filterMap, ofTokens_eq_filterMap, operationIndices_relabel, List.map_filterMap]
  apply List.filterMap_congr
  intro index member
  rw [at?_relabel (mem_operationIndices.1 member).2]
  cases at? tokens index <;> rfl

theorem label?_relabel (instruction : Instruction) :
    (instruction.relabel rename).label? = instruction.label?.map rename := by
  cases instruction with
  | applied op parameter => cases op <;> rfl
  | plain | truncated | unknown => rfl

theorem relabel_eq_truncated_iff {instruction : Instruction} {op : Opcode} :
    instruction.relabel rename = .truncated op ↔ instruction = .truncated op := by
  cases instruction <;> simp [relabel]

theorem name?_of_label? {instruction : Instruction} {label : Token}
    (defines : instruction.label? = some label) : instruction.name? = some label := by
  rw [Labels.label?_eq_some_iff.1 defines]
  rfl

end Instruction

def labelNames (tokens : List Token) : Set Token :=
  {label | ∃ placed ∈ Instruction.ofTokens tokens, placed.instruction.name? = some label}

namespace Labels

def relabel (rename : Token → Token) (labels : Labels) : Labels :=
  ⟨labels.entries.map fun entry => (rename entry.1, entry.2)⟩

def Within (names : Set Token) (labels : Labels) : Prop :=
  ∀ entry ∈ labels.entries, entry.1 ∈ names

variable {names : Set Token} {labels : Labels} {label : Token}

theorem Within.define (within : labels.Within names) (named : label ∈ names) (index : Nat) :
    (labels.define label index).Within names := by
  intro entry member
  rcases List.mem_cons.1 member with rfl | old
  · exact named
  · exact within entry (List.mem_filter.1 old).1

theorem beq_rename (apart : Set.InjOn rename names) {first second : Token} (left : first ∈ names)
    (right : second ∈ names) : (rename first == rename second) = (first == second) := by
  rw [Bool.eq_iff_iff, beq_iff_eq, beq_iff_eq]
  exact apart.eq_iff left right

theorem find?_relabel (apart : Set.InjOn rename names) (within : labels.Within names)
    (named : label ∈ names) :
    (labels.relabel rename).find? (rename label) = labels.find? label := by
  obtain ⟨entries⟩ := labels
  simp only [find?, relabel]
  induction entries with
  | nil => rfl
  | cons entry entries ih =>
    have own : entry.1 ∈ names := within entry List.mem_cons_self
    have rest : Within names ⟨entries⟩ := fun other member =>
      within other (List.mem_cons_of_mem entry member)
    rw [List.map_cons, List.lookup_cons, List.lookup_cons, beq_rename apart named own, ih rest]

theorem define_relabel (apart : Set.InjOn rename names) (within : labels.Within names)
    (named : label ∈ names) (index : Nat) :
    (labels.relabel rename).define (rename label) index =
      (labels.define label index).relabel rename := by
  have kept : ∀ entry ∈ labels.entries, (rename entry.1 != rename label) = (entry.1 != label) := by
    intro entry member
    rw [bne, bne, beq_rename apart (within entry member) named]
  simp only [define, relabel, List.map_cons, List.filter_map]
  congr 3
  exact List.filter_congr kept

theorem Within.record (within : labels.Within names) {placed : Instruction.Placed}
    (named : ∀ label, placed.instruction.label? = some label → label ∈ names) :
    (labels.record placed).Within names := by
  unfold Labels.record
  cases defines : placed.instruction.label? with
  | none => exact within
  | some label => exact within.define (named label defines) _

theorem Within.foldl_record {placed : List Instruction.Placed}
    (named : ∀ p ∈ placed, ∀ label, p.instruction.label? = some label → label ∈ names)
    (within : labels.Within names) : (placed.foldl Labels.record labels).Within names := by
  induction placed generalizing labels with
  | nil => exact within
  | cons first rest ih =>
    rw [List.forall_mem_cons] at named
    exact ih named.2 (within.record named.1)

theorem record_relabel (apart : Set.InjOn rename names) (within : labels.Within names)
    {placed : Instruction.Placed}
    (named : ∀ label, placed.instruction.label? = some label → label ∈ names) :
    (labels.relabel rename).record ⟨placed.address, placed.instruction.relabel rename⟩ =
      (labels.record placed).relabel rename := by
  simp only [record, Instruction.label?_relabel]
  cases defines : placed.instruction.label? with
  | none => rfl
  | some label => exact define_relabel apart within (named label defines) _

theorem foldl_record_relabel (apart : Set.InjOn rename names) {placed : List Instruction.Placed}
    (named : ∀ p ∈ placed, ∀ label, p.instruction.label? = some label → label ∈ names)
    (within : labels.Within names) :
    (placed.map fun p => ⟨p.address, p.instruction.relabel rename⟩).foldl record
        (labels.relabel rename) = (placed.foldl record labels).relabel rename := by
  induction placed generalizing labels with
  | nil => rfl
  | cons first rest ih =>
    rw [List.forall_mem_cons] at named
    rw [List.map_cons, List.foldl_cons, List.foldl_cons, record_relabel apart within named.1]
    exact ih named.2 (within.record named.1)

theorem within_empty : Within names empty := by simp [Within, empty]

theorem mem_labelNames_of_label? {placed : Instruction.Placed}
    (member : placed ∈ Instruction.ofTokens tokens)
    (defines : placed.instruction.label? = some label) : label ∈ labelNames tokens :=
  ⟨placed, member, Instruction.name?_of_label? defines⟩

theorem within_of_ofTokens? (resolved : ofTokens? tokens = some labels) :
    labels.Within (labelNames tokens) := by
  rw [ofTokens?] at resolved
  split at resolved
  · contradiction
  · rw [Option.some.injEq] at resolved
    subst resolved
    apply Within.foldl_record _ within_empty
    intro placed member label defines
    exact mem_labelNames_of_label? member defines

theorem ofTokens?_relabel (apart : Set.InjOn rename (labelNames tokens)) :
    ofTokens? (AwaLang.relabel rename tokens) = (ofTokens? tokens).map (relabel rename) := by
  have cut : (fun placed : Instruction.Placed =>
        placed.instruction.relabel rename == .truncated .lbl) =
      fun placed => placed.instruction == .truncated .lbl := by
    funext placed
    rw [Bool.eq_iff_iff, beq_iff_eq, beq_iff_eq]
    exact Instruction.relabel_eq_truncated_iff
  rw [ofTokens?, ofTokens?, Instruction.ofTokens_relabel, List.any_map]
  simp only [Function.comp_def, cut]
  split
  · rfl
  · apply congrArg some
    apply foldl_record_relabel apart _ within_empty
    intro placed member label defines
    exact mem_labelNames_of_label? member defines

end Labels

end AwaLang
