import AwaLang.Labels
import AwaLang.Proofs.Instruction.Parameters
import Mathlib.Data.List.Induction

namespace AwaLang.Labels

theorem lookup_filter_ne {entries : List (Token × Nat)} {label other : Token}
    (apart : other ≠ label) :
    (entries.filter (·.1 != label)).lookup other = entries.lookup other := by
  induction entries with
  | nil => rfl
  | cons entry entries ih =>
    by_cases same : entry.1 = label
    · have differs : (other == entry.1) = false := by simpa [same] using apart
      rw [List.filter_cons_of_neg (by simpa using same), ih, List.lookup_cons, differs]
    · rw [List.filter_cons_of_pos (by simpa using same), List.lookup_cons, List.lookup_cons, ih]

theorem find?_define (labels : Labels) (label other : Token) (index : Nat) :
    (labels.define label index).find? other =
      if other = label then some index else labels.find? other := by
  rw [define, find?, List.lookup_cons]
  split
  · rename_i same
    rw [if_pos (eq_of_beq same)]
  · rename_i differs
    have apart : other ≠ label := by simpa using differs
    rw [if_neg apart, lookup_filter_ne apart, find?]

theorem ofTokens?_eq_none_iff {tokens : List Token} :
    ofTokens? tokens = none ↔
      ∃ placed ∈ Instruction.ofTokens tokens, placed.instruction = .truncated .lbl := by
  rw [ofTokens?]
  simp

def lastDefinition? (tokens : List Token) (label : Token) : Option Instruction.Placed :=
  ((Instruction.ofTokens tokens).filter fun placed =>
    placed.instruction.label? = some label).getLast?

theorem find?_foldl_record (placed : List Instruction.Placed) (label : Token) :
    (placed.foldl record empty).find? label =
      (placed.filter fun p => p.instruction.label? = some label).getLast?.map (·.address + 1) := by
  induction placed using List.reverseRecOn with
  | nil => rfl
  | append_singleton placed last ih =>
    rw [List.foldl_append, List.foldl_cons, List.foldl_nil, List.filter_append, record]
    cases defined : last.instruction.label? with
    | none => simp [defined, ih]
    | some own =>
      change ((placed.foldl record empty).define own (last.address + 1)).find? label = _
      rw [find?_define, ih]
      by_cases same : label = own
      · simp [defined, same]
      · have differs : own ≠ label := fun equal => same equal.symm
        simp [defined, same, differs]

theorem find?_ofTokens {tokens : List Token} {labels : Labels}
    (resolved : ofTokens? tokens = some labels) (label : Token) :
    labels.find? label = (lastDefinition? tokens label).map (·.address + 1) := by
  rw [ofTokens?] at resolved
  split at resolved
  · contradiction
  · rw [Option.some.injEq] at resolved
    rw [← resolved]
    exact find?_foldl_record (Instruction.ofTokens tokens) label

theorem label?_eq_some_iff {instruction : Instruction} {label : Token} :
    instruction.label? = some label ↔ instruction = .applied .lbl label := by
  constructor
  · intro defined
    unfold Instruction.label? at defined
    split at defined
    · rw [Option.some.inj defined]
    · contradiction
  · rintro rfl
    rfl

theorem lastDefinition?_eq_none_iff {tokens : List Token} {label : Token} :
    lastDefinition? tokens label = none ↔
      ∀ placed ∈ Instruction.ofTokens tokens, placed.instruction ≠ .applied .lbl label := by
  simp [lastDefinition?, label?_eq_some_iff]

theorem lastDefinition?_spec {tokens : List Token} {label : Token} {placed : Instruction.Placed}
    (last : lastDefinition? tokens label = some placed) :
    placed ∈ Instruction.ofTokens tokens ∧ placed.instruction = .applied .lbl label := by
  have member := List.mem_filter.1 (List.mem_of_getLast? last)
  exact ⟨member.1, label?_eq_some_iff.1 (of_decide_eq_true member.2)⟩

theorem find?_eq_operationIndices {tokens : List Token} {labels : Labels}
    (resolved : ofTokens? tokens = some labels) (label : Token) :
    labels.find? label =
      ((Instruction.operationIndices tokens).filter fun index =>
        Instruction.at? tokens index = some (.applied .lbl label)).getLast?.map (· + 1) := by
  have same : ((Instruction.ofTokens tokens).filter fun placed =>
        placed.instruction.label? = some label) =
      (Instruction.ofTokens tokens).filter fun placed =>
        Instruction.at? tokens placed.address = some (.applied .lbl label) := by
    apply List.filter_congr
    intro placed member
    simp only [Instruction.at?_of_mem_ofTokens member, label?_eq_some_iff, Option.some.injEq]
  rw [find?_ofTokens resolved, lastDefinition?, same, ← Instruction.addresses_ofTokens,
    List.filter_map, List.getLast?_map, Option.map_map]
  rfl

end AwaLang.Labels
