import AwaLang.Proofs.Listing.Reassembly
import Mathlib.Data.List.Nodup

namespace AwaLang.Listing

open Instruction Text

/-- What a line shows: an address, a mark or none, and words with single spaces between. -/
structure Entry where
  address : Nat
  marked : Bool
  words : List (List Char)

def Entry.text (entry : Entry) : List Char :=
  Listing.address entry.address ++ ' ' :: (if entry.marked then ['►', ' '] else [' ', ' ']) ++
    [' '].intercalate entry.words

def Shows (tokens : List Token) (entry : Entry) : Prop :=
  (Text.lines (render tokens).toList).filter (address entry.address ++ [' '] <+: ·) = [entry.text]

def words : Instruction → List (List Char)
  | .plain op => [op.spelling]
  | .applied op parameter => [op.spelling, numeral parameter]
  | .truncated op => [op.spelling, "<missing>".toList]
  | .unknown token =>
    ["???".toList, ";".toList, "invalid".toList, "code".toList, Opcode.nameOf token]

theorem code_eq_intercalate (instruction : Instruction) :
    code instruction = [' '].intercalate (words instruction) := by
  cases instruction with
  | plain op => exact List.intercalate_singleton.symm
  | applied op parameter => simp [code_applied, words, List.intercalate_cons_cons]
  | truncated op => simp [code_truncated, words, List.intercalate_cons_cons]
  | unknown token =>
    simp only [words, List.intercalate_cons_cons, List.intercalate_singleton]
    rfl

def entry (tokens : List Token) (placed : Placed) : Entry :=
  ⟨placed.address, placed.instruction.label?.any ((targets tokens).contains ·),
    words placed.instruction⟩

theorem line_eq_text (tokens : List Token) (placed : Placed) :
    line (targets tokens) placed = (entry tokens placed).text := by
  rw [line, marker, code_eq_intercalate]
  rfl

theorem nodup_operationIndices (tokens : List Token) : (operationIndices tokens).Nodup :=
  List.nodup_range.filter _

theorem filter_address_eq {tokens : List Token} {placed : Placed}
    (member : placed ∈ ofTokens tokens) :
    (ofTokens tokens).filter (·.address = placed.address) = [placed] := by
  have distinct : ((ofTokens tokens).map Placed.address).Nodup := by
    rw [addresses_ofTokens]
    exact nodup_operationIndices tokens
  obtain ⟨before, after, split⟩ := List.append_of_mem member
  rw [split, List.map_append, List.map_cons, List.nodup_middle, ← List.map_append,
    List.nodup_cons] at distinct
  have others : ∀ other ∈ before ++ after, ¬ decide (other.address = placed.address) = true := by
    intro other inside same
    exact distinct.1 (of_decide_eq_true same ▸ List.mem_map_of_mem inside)
  obtain ⟨first, last⟩ := List.append_eq_nil_iff.1
    (List.filter_append before after ▸ List.filter_eq_nil_iff.2 others)
  rw [split, List.filter_append, List.filter_cons_of_pos (by simp), first, last, List.nil_append]

theorem filter_lines {tokens : List Token} {placed : Placed} (member : placed ∈ ofTokens tokens) :
    (lines tokens).filter (address placed.address ++ [' '] <+: ·) =
      [line (targets tokens) placed] := by
  have begins : (fun other : Placed =>
        decide (address placed.address ++ [' '] <+: line (targets tokens) other)) =
      fun other => decide (other.address = placed.address) := by
    funext other
    exact decide_eq_decide.2 address_prefix_line_iff
  rw [lines, List.filter_map, Function.comp_def, begins, filter_address_eq member,
    List.map_singleton]

theorem shows_entry {tokens : List Token} {placed : Placed} (member : placed ∈ ofTokens tokens) :
    Shows tokens (entry tokens placed) := by
  have ended : [[]].filter (address placed.address ++ [' '] <+: ·) = [] := by simp
  rw [Shows, ← line_eq_text, lines_render, List.filter_append]
  change (lines tokens).filter (address placed.address ++ [' '] <+: ·) ++
    [[]].filter (address placed.address ++ [' '] <+: ·) = _
  rw [filter_lines member, ended, List.append_nil]

theorem target?_eq_some_iff {instruction : Instruction} {label : Token} :
    instruction.target? = some label ↔
      ∃ op, op.isJump = true ∧ instruction = .applied op label := by
  cases instruction with
  | applied op parameter => simp [target?, and_comm]
  | plain | truncated | unknown => simp [target?]

theorem mem_targets_iff {tokens : List Token} {label : Token} :
    label ∈ targets tokens ↔
      ∃ jump ∈ ofTokens tokens, ∃ op, op.isJump = true ∧ jump.instruction = .applied op label := by
  simp only [targets, List.mem_filterMap, target?_eq_some_iff]

theorem marked_entry_iff {tokens : List Token} {placed : Placed} {label : Token}
    (shape : placed.instruction = .applied .lbl label) :
    (entry tokens placed).marked = true ↔
      ∃ jump ∈ ofTokens tokens, ∃ op, op.isJump = true ∧ jump.instruction = .applied op label := by
  rw [← mem_targets_iff, entry, shape]
  exact List.contains_iff_mem

end AwaLang.Listing
