import AwaLang.Proofs.Assembly
import AwaLang.Proofs.Listing
import Mathlib.Data.List.TakeWhile

namespace AwaLang

open Instruction Text

theorem Opcode.isPlain_of_mem_spelling {op : Opcode} {c : Char} (member : c ∈ op.spelling) :
    isPlain c := by
  have all : op.spelling.all isPlain := by cases op <;> decide
  exact List.all_eq_true.1 all c member

namespace Assembly

variable {first second : List Char}

theorem takeWhile_comment {text : List Char} (plain : ∀ c ∈ text, isPlain c ∨ c = ' ') :
    text.takeWhile (· != ';') = text := by
  rw [List.takeWhile_eq_self_iff]
  intro c member
  rw [bne_iff_ne]
  rintro rfl
  exact absurd (plain ';' member) (by decide)

theorem wordsOf_word (some : first ≠ []) (plain : ∀ c ∈ first, isPlain c) :
    wordsOf first = [first] := by
  rw [wordsOf, takeWhile_comment fun c member => .inl (plain c member)]
  exact words_eq_singleton some fun c member => isBlank_eq_false_of_isPlain (plain c member)

theorem wordsOf_two (some : first ≠ []) (plain : ∀ c ∈ first, isPlain c)
    (more : second ≠ []) (clear : ∀ c ∈ second, isPlain c) :
    wordsOf (first ++ ' ' :: second) = [first, second] := by
  have whole : ∀ c ∈ first ++ ' ' :: second, isPlain c ∨ c = ' ' := by
    intro c member
    rcases List.mem_append.1 member with front | behind
    · exact .inl (plain c front)
    · rcases List.mem_cons.1 behind with blank | last
      · exact .inr blank
      · exact .inl (clear c last)
  rw [wordsOf, takeWhile_comment whole, words_append_blank first second (by decide),
    words_eq_singleton some fun c member => isBlank_eq_false_of_isPlain (plain c member),
    words_eq_singleton more fun c member => isBlank_eq_false_of_isPlain (clear c member)]
  rfl

theorem code?_spelling (op : Opcode) : code? op.spelling = some op.code := by
  simp [code?, Opcode.ofMnemonic?_spelling]

end Assembly

namespace Listing

open Assembly

def withoutMargin (line : List Char) : List Char := (line.dropWhile (· ≠ ' ')).drop 3

def withoutMargins (listing : String) : String :=
  String.ofList (['\n'].intercalate ((Text.lines listing.toList).map withoutMargin))

theorem column_eq (op : Opcode) : column op = op.spelling ++ [' '] := by
  cases op <;> rfl

theorem code_applied (op : Opcode) (parameter : Token) :
    code (.applied op parameter) = op.spelling ++ ' ' :: numeral parameter := by
  calc
    code (.applied op parameter) = column op ++ numeral parameter := rfl
    _ = op.spelling ++ ' ' :: numeral parameter := by
      rw [column_eq, List.append_assoc, List.singleton_append]

theorem code_truncated (op : Opcode) :
    code (.truncated op) = op.spelling ++ ' ' :: "<missing>".toList := by
  calc
    code (.truncated op) = column op ++ "<missing>".toList := rfl
    _ = op.spelling ++ ' ' :: "<missing>".toList := by
      rw [column_eq, List.append_assoc, List.singleton_append]

theorem withoutMargin_line (targets : List Token) (placed : Placed) :
    withoutMargin (line targets placed) = code placed.instruction := by
  have margin : (marker targets placed.instruction).length = 2 := by
    rw [marker]
    split <;> rfl
  have solid : ∀ c ∈ address placed.address, decide (c ≠ ' ') = true := by
    intro c member
    exact decide_eq_true (ne_space_of_mem_address member)
  calc
    withoutMargin (line targets placed) =
        ((address placed.address ++ ' ' :: (marker targets placed.instruction ++
          code placed.instruction)).dropWhile (· ≠ ' ')).drop 3 := by
      rw [withoutMargin, line, List.append_assoc, List.cons_append]
    _ = (' ' :: (marker targets placed.instruction ++ code placed.instruction)).drop 3 := by
      rw [List.dropWhile_append_of_pos solid, List.dropWhile_cons_of_neg (by simp)]
    _ = code placed.instruction := List.drop_left' margin

theorem mem_of_mem_withoutMargin {text : List Char} {c : Char} (member : c ∈ withoutMargin text) :
    c ∈ text := (List.dropWhile_sublist _).subset (List.mem_of_mem_drop member)

theorem isPlain_of_mem_address {index : Nat} {c : Char} (member : c ∈ address index) :
    isPlain c := by
  rcases List.mem_append.1 member with zero | digit
  · rw [(List.mem_replicate.1 zero).2]
    rfl
  · exact isPlain_of_mem_toDigits digit

theorem isPlain_of_mem_nameOf {token : Token} {c : Char} (member : c ∈ Opcode.nameOf token) :
    isPlain c := by
  rw [Opcode.nameOf] at member
  split at member
  · exact Opcode.isPlain_of_mem_spelling member
  · exact isPlain_of_mem_numeral member

theorem mem_code {instruction : Instruction} {c : Char} (member : c ∈ code instruction) :
    isPlain c ∨ c ∈ [' ', '?', ';'] ∨
      (∃ op, instruction = .truncated op) ∧ c ∈ ['<', '>'] := by
  cases instruction with
  | plain op => exact .inl (Opcode.isPlain_of_mem_spelling member)
  | applied op parameter =>
    rw [code_applied] at member
    rcases List.mem_append.1 member with name | behind
    · exact .inl (Opcode.isPlain_of_mem_spelling name)
    · rcases List.mem_cons.1 behind with rfl | number
      · exact .inr (.inl List.mem_cons_self)
      · exact .inl (isPlain_of_mem_numeral number)
  | truncated op =>
    have shown : "<missing>".toList.all fun c => isPlain c || ['<', '>'].contains c := by decide
    rw [code_truncated] at member
    rcases List.mem_append.1 member with name | behind
    · exact .inl (Opcode.isPlain_of_mem_spelling name)
    · rcases List.mem_cons.1 behind with rfl | text
      · exact .inr (.inl List.mem_cons_self)
      · rcases Bool.or_eq_true_iff.1 (List.all_eq_true.1 shown c text) with plain | bracket
        · exact .inl plain
        · exact .inr (.inr ⟨⟨op, rfl⟩, List.contains_iff_mem.1 bracket⟩)
  | unknown token =>
    have shown : "??? ; invalid code ".toList.all fun c =>
        isPlain c || [' ', '?', ';'].contains c := by
      decide
    rcases List.mem_append.1 member with text | name
    · rcases Bool.or_eq_true_iff.1 (List.all_eq_true.1 shown c text) with plain | other
      · exact .inl plain
      · exact .inr (.inl (List.contains_iff_mem.1 other))
    · exact .inl (isPlain_of_mem_nameOf name)

theorem mem_line {targets : List Token} {placed : Placed} {c : Char}
    (member : c ∈ line targets placed) :
    isPlain c ∨ c ∈ [' ', '►', '?', ';'] ∨
      (∃ op, placed.instruction = .truncated op) ∧ c ∈ ['<', '>'] := by
  rcases List.mem_append.1 member with margin | shown
  · rcases List.mem_append.1 margin with number | mark
    · exact .inl (isPlain_of_mem_address number)
    · have marks : ∀ c ∈ ' ' :: marker targets placed.instruction, c ∈ [' ', '►', '?', ';'] := by
        rw [marker]
        split <;> simp
      exact .inr (.inl (marks c mark))
  · rcases mem_code shown with plain | other | missing
    · exact .inl plain
    · refine .inr (.inl ?_)
      simp only [List.mem_cons, List.not_mem_nil, or_false] at other ⊢
      tauto
    · exact .inr (.inr missing)

theorem newline_notMem_line {targets : List Token} {placed : Placed} :
    '\n' ∉ line targets placed := by
  intro member
  rcases mem_line member with plain | other | ⟨-, bracket⟩
  · exact absurd plain (by decide)
  · exact absurd other (by decide)
  · exact absurd bracket (by decide)

theorem lines_render (tokens : List Token) :
    Text.lines (render tokens).toList = lines tokens ++ [[]] := by
  rw [render, String.toList_ofList]
  apply lines_flatMap_newline
  intro text member
  obtain ⟨placed, -, rfl⟩ := List.mem_map.1 member
  exact newline_notMem_line

theorem lines_withoutMargins (tokens : List Token) :
    Text.lines (withoutMargins (render tokens)).toList =
      (ofTokens tokens).map (code ·.instruction) ++ [[]] := by
  have shown : (lines tokens ++ [[]]).map withoutMargin =
      (ofTokens tokens).map (code ·.instruction) ++ [[]] := by
    rw [List.map_append, lines, List.map_map]
    congr 1
    apply List.map_congr_left
    intro placed member
    exact withoutMargin_line (targets tokens) placed
  rw [withoutMargins, lines_render, shown, String.toList_ofList]
  apply lines_intercalate
  · intro text member
    rcases List.mem_append.1 member with inside | last
    · obtain ⟨placed, -, rfl⟩ := List.mem_map.1 inside
      rw [← withoutMargin_line (targets tokens)]
      intro newline
      exact newline_notMem_line (mem_of_mem_withoutMargin newline)
    · rw [List.mem_singleton.1 last]
      exact List.not_mem_nil
  · simp

theorem assembleLine_code {instruction : Instruction} (complete : instruction.IsComplete)
    (standard : instruction.IsStandard)
    (range : ∀ op parameter, instruction = .applied op parameter →
      Token.least ≤ parameter ∧ parameter ≤ Token.greatest) :
    assembleLine (code instruction) = .ok instruction.tokens := by
  have named (op : Opcode) : op.spelling ≠ [] := by cases op <;> decide
  cases instruction with
  | plain op =>
    have alone : op.takesParameter = false := standard
    have filtered : (Opcode.ofCode? op.code).filter Opcode.takesParameter = none := by
      rw [Opcode.ofCode?_code, Option.filter_some, alone, if_neg Bool.false_ne_true]
    have words : wordsOf (code (.plain op)) = [op.spelling] :=
      wordsOf_word (named op) fun c member => Opcode.isPlain_of_mem_spelling member
    rw [assembleLine, words]
    exact instruction_of_alone (code?_spelling op) filtered
  | applied op parameter =>
    have words : wordsOf (code (.applied op parameter)) = [op.spelling, numeral parameter] := by
      rw [code_applied]
      exact wordsOf_two (named op) (fun c member => Opcode.isPlain_of_mem_spelling member)
        (numeral_ne_nil parameter) fun c member => isPlain_of_mem_numeral member
    have value : operandOf (numeral parameter) = .ok parameter := by
      have bounds := range op parameter rfl
      rw [operandOf, integer?_numeral _ _ _ bounds.1 bounds.2]
    rw [assembleLine, words]
    calc
      Assembly.instruction op.spelling (some (numeral parameter)) =
          (operandOf (numeral parameter)).map fun parameter => [(op.code : Token), parameter] :=
        instruction_of_takes (code?_spelling op) (Opcode.ofCode?_code op) standard
      _ = .ok (Instruction.applied op parameter).tokens := by rw [value]; rfl
  | truncated op => exact absurd complete id
  | unknown token => exact absurd complete id

/-- Listing and assembling are inverse. The listing of a stream of complete instructions, with the
margin taken off each line, is assembled to the stream, but for its operations, which are reduced to
five bits. -/
theorem assemble_withoutMargins {tokens : List Token}
    (complete : ∀ placed ∈ ofTokens tokens, placed.instruction.IsComplete)
    (range : ∀ token ∈ tokens, Token.least ≤ token ∧ token ≤ Token.greatest) :
    assemble (withoutMargins (render tokens)) = .ok (reduced tokens) := by
  have each : ∀ placed ∈ ofTokens tokens,
      assembleLine (code placed.instruction) = .ok placed.instruction.tokens := by
    intro placed member
    have found := at?_of_mem_ofTokens member
    apply assembleLine_code (complete placed member) ((complete placed member).isStandard found)
    intro op parameter applied
    rw [applied] at found
    exact range parameter (mem_of_at?_applied found)
  have shown : List.Forall₂ (fun line part => assembleLine line = .ok part)
      ((ofTokens tokens).map (code ·.instruction))
      ((ofTokens tokens).map (·.instruction.tokens)) := by
    rw [List.forall₂_map_left_iff, List.forall₂_map_right_iff, List.forall₂_same]
    exact each
  rw [assemble, lines_withoutMargins, assembleLines_eq_ok_iff]
  refine ⟨(ofTokens tokens).map (·.instruction.tokens) ++ [[]], ?_, ?_⟩
  · exact List.rel_append shown (.cons rfl .nil)
  · rw [List.flatten_append, ← List.flatMap_def, reduced_eq_flatMap 0, ofTokens]
    exact List.append_nil _

theorem assemble_withoutMargins_negative_operation :
    render [-16, 7, 69, -2147483648, 49, 7, -1] =
        "0000 ► lbl 7\n0002   blo -2147483648\n0004   jmp 7\n0006   trm\n" ∧
      assemble (withoutMargins (render [-16, 7, 69, -2147483648, 49, 7, -1])) =
        .ok [16, 7, 5, -2147483648, 17, 7, 31] := by
  have complete : ∀ placed ∈ ofTokens [-16, 7, 69, -2147483648, 49, 7, -1],
      placed.instruction.IsComplete := by
    have shape : ofTokens [-16, 7, 69, -2147483648, 49, 7, -1] =
        [⟨0, .applied .lbl 7⟩, ⟨2, .applied .blo (-2147483648)⟩, ⟨4, .applied .jmp 7⟩,
          ⟨6, .plain .trm⟩] := by
      decide +kernel
    simp [shape, Instruction.IsComplete]
  have range : ∀ token ∈ ([-16, 7, 69, -2147483648, 49, 7, -1] : List Token),
      Token.least ≤ token ∧ token ≤ Token.greatest := by
    decide
  have text : render [-16, 7, 69, -2147483648, 49, 7, -1] =
      "0000 ► lbl 7\n0002   blo -2147483648\n0004   jmp 7\n0006   trm\n" := by
    decide +kernel
  have again := assemble_withoutMargins complete range
  have canonical : reduced [-16, 7, 69, -2147483648, 49, 7, -1] =
      [16, 7, 5, -2147483648, 17, 7, 31] := by
    decide +kernel
  exact ⟨text, canonical ▸ again⟩

end Listing

end AwaLang
