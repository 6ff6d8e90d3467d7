import AwaLang.Proofs.Labels
import AwaLang.Proofs.Machine.Runs

namespace AwaLang

open Instruction

theorem getLast?_eq_some_iff_greatest {α : Type} {key : α → Nat} {items : List α}
    (ascending : items.Pairwise (key · < key ·)) {last : α} :
    items.getLast? = some last ↔ last ∈ items ∧ ∀ item ∈ items, key item ≤ key last := by
  rcases List.eq_nil_or_concat items with rfl | ⟨front, final, rfl⟩
  · simp
  · rw [List.concat_eq_append] at ascending ⊢
    have below : ∀ item ∈ front, key item < key final := by
      intro item member
      exact (List.pairwise_append.1 ascending).2.2 item member final (List.mem_singleton_self final)
    rw [List.getLast?_concat, Option.some.injEq]
    constructor
    · rintro rfl
      refine ⟨List.mem_concat_self, ?_⟩
      intro item member
      rcases List.mem_append.1 member with earlier | same
      · exact Nat.le_of_lt (below item earlier)
      · exact Nat.le_of_eq (congrArg key (List.mem_singleton.1 same))
    · rintro ⟨member, greatest⟩
      rcases List.mem_append.1 member with earlier | same
      · exact absurd (greatest final List.mem_concat_self) (Nat.not_le.2 (below last earlier))
      · exact (List.mem_singleton.1 same).symm

theorem Instruction.getLast?_of_truncated {tokens : List Token} {placed : Placed} {op : Opcode}
    (member : placed ∈ ofTokens tokens) (truncated : placed.instruction = .truncated op) :
    (ofTokens tokens).getLast? = some placed := by
  rw [getLast?_eq_some_iff_greatest (pairwise_address_ofTokens tokens)]
  refine ⟨member, ?_⟩
  intro other inside
  have found := at?_of_mem_ofTokens member
  rw [truncated] at found
  have length := (at?_eq_truncated_iff.1 found).2.2
  have within := lt_of_at?_eq_some (at?_of_mem_ofTokens inside)
  omega

namespace Labels

variable {tokens : List Token} {labels : Labels} {label : Token} {index : Nat}

theorem lastDefinition?_eq_some_iff {placed : Placed} :
    lastDefinition? tokens label = some placed ↔
      (placed ∈ ofTokens tokens ∧ placed.instruction = .applied .lbl label) ∧
        ∀ other ∈ ofTokens tokens, other.instruction = .applied .lbl label →
          other.address ≤ placed.address := by
  rw [lastDefinition?,
    getLast?_eq_some_iff_greatest ((pairwise_address_ofTokens tokens).filter _)]
  simp only [List.mem_filter, decide_eq_true_eq, label?_eq_some_iff, and_imp]

theorem find?_eq_some_iff (resolved : ofTokens? tokens = some labels) :
    labels.find? label = some index ↔
      ∃ placed ∈ ofTokens tokens, placed.instruction = .applied .lbl label ∧
        index = placed.address + 1 ∧
        ∀ other ∈ ofTokens tokens, other.instruction = .applied .lbl label →
          other.address ≤ placed.address := by
  rw [find?_ofTokens resolved, Option.map_eq_some_iff]
  simp only [lastDefinition?_eq_some_iff, eq_comm (b := index)]
  constructor
  · rintro ⟨placed, ⟨⟨member, defines⟩, last⟩, place⟩
    exact ⟨placed, member, defines, place, last⟩
  · rintro ⟨placed, member, defines, place, last⟩
    exact ⟨placed, ⟨⟨member, defines⟩, last⟩, place⟩

theorem exists_find?_iff (resolved : ofTokens? tokens = some labels) :
    (∃ index, labels.find? label = some index) ↔
      ∃ placed ∈ ofTokens tokens, placed.instruction = .applied .lbl label := by
  constructor
  · rintro ⟨index, found⟩
    obtain ⟨placed, member, defines, -⟩ := (find?_eq_some_iff resolved).1 found
    exact ⟨placed, member, defines⟩
  · rintro ⟨placed, member, defines⟩
    rw [find?_ofTokens resolved]
    cases last : lastDefinition? tokens label with
    | some own => exact ⟨own.address + 1, rfl⟩
    | none => exact absurd defines (lastDefinition?_eq_none_iff.1 last placed member)

theorem tokens_of_find? (resolved : ofTokens? tokens = some labels)
    (found : labels.find? label = some index) :
    index < tokens.length ∧ tokens[index]? = some label ∧
      ∃ place, index = place + 1 ∧ isParameter tokens place = false ∧
        tokens[place]?.bind Opcode.decode = some .lbl := by
  obtain ⟨placed, member, defines, rfl, -⟩ := (find?_eq_some_iff resolved).1 found
  obtain ⟨plain, shape⟩ := mem_ofTokens_iff.1 member
  rw [defines] at shape
  obtain ⟨operation, -, name⟩ := at?_eq_applied_iff.1 shape
  exact ⟨(List.getElem?_eq_some_iff.1 name).1, name, placed.address, rfl, plain, operation⟩

theorem nodup_define (once : (labels.entries.map Prod.fst).Nodup) (label : Token) (index : Nat) :
    ((labels.define label index).entries.map Prod.fst).Nodup := by
  rw [define, List.map_cons, List.nodup_cons]
  constructor
  · intro again
    obtain ⟨entry, member, same⟩ := List.mem_map.1 again
    simp [same] at member
  · exact once.sublist (List.filter_sublist.map Prod.fst)

theorem nodup_foldl_record (once : (labels.entries.map Prod.fst).Nodup) (placed : List Placed) :
    ((placed.foldl record labels).entries.map Prod.fst).Nodup := by
  induction placed generalizing labels with
  | nil => exact once
  | cons first rest ih =>
    apply ih
    rw [record]
    split
    · exact nodup_define once _ _
    · exact once

theorem nodup_ofTokens? (resolved : ofTokens? tokens = some labels) :
    (labels.entries.map Prod.fst).Nodup := by
  rw [ofTokens?] at resolved
  split at resolved
  · contradiction
  · rw [Option.some.injEq] at resolved
    have none : (empty.entries.map Prod.fst).Nodup := List.nodup_nil
    exact resolved ▸ nodup_foldl_record none (ofTokens tokens)

theorem mem_entries_iff (once : (labels.entries.map Prod.fst).Nodup) :
    (label, index) ∈ labels.entries ↔ labels.find? label = some index := by
  obtain ⟨entries⟩ := labels
  change (label, index) ∈ entries ↔ entries.lookup label = some index
  replace once : (entries.map Prod.fst).Nodup := once
  induction entries with
  | nil => simp
  | cons entry entries ih =>
    obtain ⟨own, place⟩ := entry
    rw [List.map_cons, List.nodup_cons] at once
    by_cases same : label = own
    · have alone : (own, index) ∉ entries := by
        intro member
        exact once.1 (List.mem_map.2 ⟨_, member, rfl⟩)
      simp [same, alone, eq_comm]
    · have differs : (label == own) = false := by simpa using same
      simp [List.lookup_cons, differs, same, ih once.2]

/-- The instructions of a stream are those that stand at its tokens that are no parameters. If the
last of them is a label without a name, there is no table and no run. Otherwise the table has an
entry for a label exactly if some instruction defines it: one entry, with the place of the name in
the last definition, which follows on a token of the operation `lbl`. -/
theorem table_of_definitions (tokens : List Token) :
    (∀ placed, placed ∈ ofTokens tokens ↔
      isParameter tokens placed.address = false ∧
        at? tokens placed.address = some placed.instruction) ∧
    (ofTokens? tokens = none ↔
      ∃ last, (ofTokens tokens).getLast? = some last ∧ last.instruction = .truncated .lbl) ∧
    (∀ (σ : Type) (i : Interpreter σ) failure, i.prepare tokens = .error failure ↔
      ofTokens? tokens = none ∧ failure = ⟨.missingParameter .lbl, [.run, .resolveLabels]⟩) ∧
    ∀ labels, ofTokens? tokens = some labels →
      (labels.entries.map Prod.fst).Nodup ∧
      ∀ label,
        ((∃ index, labels.find? label = some index) ↔
          ∃ placed ∈ ofTokens tokens, placed.instruction = .applied .lbl label) ∧
        ∀ index,
          ((label, index) ∈ labels.entries ↔ labels.find? label = some index) ∧
          (labels.find? label = some index ↔
            ∃ placed ∈ ofTokens tokens, placed.instruction = .applied .lbl label ∧
              index = placed.address + 1 ∧
              ∀ other ∈ ofTokens tokens, other.instruction = .applied .lbl label →
                other.address ≤ placed.address) ∧
          (labels.find? label = some index →
            index < tokens.length ∧ tokens[index]? = some label ∧
              ∃ place, index = place + 1 ∧ isParameter tokens place = false ∧
                tokens[place]?.bind Opcode.decode = some .lbl) := by
  refine ⟨fun placed => mem_ofTokens_iff, ?_, ?_, ?_⟩
  · rw [ofTokens?_eq_none_iff]
    constructor
    · rintro ⟨placed, member, truncated⟩
      exact ⟨placed, getLast?_of_truncated member truncated, truncated⟩
    · rintro ⟨last, ends, truncated⟩
      exact ⟨last, List.mem_of_getLast? ends, truncated⟩
  · intro σ i failure
    rw [Interpreter.prepare, Program.ofTokens?, Interpreter.calls_resolving]
    cases ofTokens? tokens with
    | none => simp [CallStack.failure, Failure.ofCause, Failure.withTrace, eq_comm]
    | some labels => simp
  · intro labels resolved
    have once := nodup_ofTokens? resolved
    refine ⟨once, ?_⟩
    intro label
    refine ⟨exists_find?_iff resolved, ?_⟩
    intro index
    exact ⟨mem_entries_iff once, find?_eq_some_iff resolved, tokens_of_find? resolved⟩

/-- A code of `lbl` that is a parameter, a token that names no operation, and two definitions of one
label. -/
theorem table_of_definitions_twice_defined :
    ofTokens? [5, 16, 16, 7, 23, 48, 7, 5] = some ⟨[(7, 6)]⟩ ∧
    (∃ index, find? ⟨[(7, 6)]⟩ 7 = some index) ∧ (¬ ∃ index, find? ⟨[(7, 6)]⟩ 16 = some index) ∧
    ofTokens? [5, 16, 16, 7, 23, 48] = none := by
  have resolved : ofTokens? [5, 16, 16, 7, 23, 48, 7, 5] = some ⟨[(7, 6)]⟩ := by decide
  obtain ⟨-, -, -, defined⟩ := table_of_definitions [5, 16, 16, 7, 23, 48, 7, 5]
  obtain ⟨-, ends, -⟩ := table_of_definitions [5, 16, 16, 7, 23, 48]
  have each := (defined _ resolved).2
  refine ⟨resolved, (each 7).1.2 ⟨⟨2, .applied .lbl 7⟩, by decide, rfl⟩, ?_, ?_⟩
  · rw [(each 16).1]
    decide
  · exact ends.2 ⟨⟨5, .truncated .lbl⟩, by decide, rfl⟩

end Labels

end AwaLang
