import AwaLang.Proofs.Interpreter.Truncation
import AwaLang.Proofs.Listing.Reassembly
import AwaLang.Proofs.Source.Misfits

namespace AwaLang.Assembly

open Instruction

variable {text : String} {tokens : List Token}

theorem standard_of_assemble (assembled : assemble text = .ok tokens) :
    reduced tokens = tokens ∧ (∀ placed ∈ ofTokens tokens, placed.instruction.IsStandard) ∧
      (ofTokens tokens).length = (Text.lines text.toList).countP (!isBlankLine ·) := by
  obtain ⟨instructions, standard, rfl, count⟩ := exists_instructions assembled
  have found := placeFrom_flatMap standard 0
  refine ⟨reduced_flatMap standard, ?_, ?_⟩
  · intro placed member
    apply standard
    rw [← found]
    exact List.mem_map_of_mem member
  · calc
      (ofTokens (instructions.flatMap Instruction.tokens)).length =
          ((placeFrom 0 (instructions.flatMap Instruction.tokens)).map
            Placed.instruction).length := (List.length_map _).symm
      _ = (Text.lines text.toList).countP (!isBlankLine ·) := by rw [found, count]

structure IsCode (tokens : List Token) (index : Nat) (token : Token) : Prop where
  nonneg : 0 ≤ token
  small : token < 32
  followed : ∀ op, Opcode.decode token = some op → op.takesParameter = true →
    index + 1 < tokens.length

def IsCoded (tokens : List Token) : Prop :=
  ∀ index token, tokens[index]? = some token → isParameter tokens index = false →
    IsCode tokens index token

theorem isCoded_of_standard (canonical : reduced tokens = tokens)
    (standard : ∀ placed ∈ ofTokens tokens, placed.instruction.IsStandard) : IsCoded tokens := by
  intro index token present plain
  have same : token % 32 = token := by
    have entry : (reduced tokens)[index]? = some token := by rw [canonical, present]
    rw [reduced, List.getElem?_mapIdx, present, plain] at entry
    simpa using entry
  have inside := (List.getElem?_eq_some_iff.1 present).1
  have place : index ∈ (ofTokens tokens).map Placed.address := by
    rw [addresses_ofTokens]
    exact mem_operationIndices.2 ⟨inside, plain⟩
  obtain ⟨placed, member, rfl⟩ := List.mem_map.1 place
  refine ⟨same ▸ Int.emod_nonneg token (by decide), same ▸ Int.emod_lt_of_pos token (by decide), ?_⟩
  intro op known takes
  by_contra ended
  have past : tokens[placed.address + 1]? = none :=
    List.getElem?_eq_none_iff.2 (Nat.le_of_not_lt ended)
  have found := at?_of_mem_ofTokens member
  rw [at?_eq_truncated present known takes past] at found
  exact (standard placed member).ne_truncated op (Option.some.inj found).symm

structure FirstOutside (tokens : List Token) (misfit : Source.Misfit) : Prop where
  parameter : isParameter tokens misfit.index = true
  present : tokens[misfit.index]? = some misfit.value
  outside : ¬ (-128 ≤ misfit.value ∧ misfit.value ≤ 255)
  width : misfit.width = 8
  before : ∀ index < misfit.index, ∀ token, isParameter tokens index = true →
    tokens[index]? = some token → -128 ≤ token ∧ token ≤ 255

section Encoding

variable (coded : IsCoded tokens)

include coded

theorem fits_atIndex_iff {index : Nat} {token : Token} (present : tokens[index]? = some token) :
    (Role.atIndex tokens index).fits token ↔
      (isParameter tokens index = true → -128 ≤ token ∧ token ≤ 255) := by
  cases own : isParameter tokens index with
  | true => simp [Role.atIndex, own, Role.fits_parameter]
  | false =>
    have code := coded index token present own
    have low : (-16 : Token) ≤ token := Int.le_trans (by decide) code.nonneg
    have high : token ≤ 31 := Int.le_of_lt_add_one code.small
    simp [Role.atIndex, own, Role.fits_opcode, low, high]

theorem firstLarge_iff {misfit : Source.Misfit} :
    Source.FirstLarge tokens misfit ↔ FirstOutside tokens misfit := by
  constructor
  · rintro ⟨present, width, large, before⟩
    rw [fits_atIndex_iff coded present, Classical.not_imp] at large
    refine ⟨large.1, present, large.2, ?_, ?_⟩
    · rw [width, Role.atIndex, if_pos large.1]
      rfl
    · intro index earlier token own there
      exact (fits_atIndex_iff coded there).1 (before index earlier token there) own
  · rintro ⟨parameter, present, outside, width, before⟩
    refine ⟨present, ?_, ?_, ?_⟩
    · rw [width, Role.atIndex, if_pos parameter]
      rfl
    · rw [fits_atIndex_iff coded present]
      exact fun room => outside (room parameter)
    · intro index earlier token there
      rw [fits_atIndex_iff coded there]
      exact fun own => before index earlier token own there

theorem encode_fails_iff :
    (∃ misfit, Source.encode tokens = .error misfit) ↔
      ∃ index token, isParameter tokens index = true ∧ tokens[index]? = some token ∧
        ¬ (-128 ≤ token ∧ token ≤ 255) := by
  simp only [Source.encode_eq_error_iff_firstLarge, Source.exists_firstLarge_iff]
  constructor
  · rintro ⟨index, token, present, large⟩
    rw [fits_atIndex_iff coded present, Classical.not_imp] at large
    exact ⟨index, token, large.1, present, large.2⟩
  · rintro ⟨index, token, own, present, outside⟩
    refine ⟨index, token, present, ?_⟩
    rw [fits_atIndex_iff coded present]
    exact fun room => outside (room own)

end Encoding

structure WellFormed (text : String) (tokens : List Token) : Prop where
  operations : IsCoded tokens
  labels : ∃ labels, Labels.ofTokens? tokens = some labels
  /-- Whatever the host answers, and however often the run waits. -/
  runs : ∀ (σ : Type) [Host σ] (i : Interpreter σ) (failure : Failure) (op : Opcode),
    i.Comes tokens (.failed failure) → failure.cause ≠ .missingParameter op
  listed : ∃ shown, Text.lines (Listing.render tokens).toList = shown ++ [[]] ∧
    shown.length = (Text.lines text.toList).countP (!isBlankLine ·)
  shown : ¬ "<missing>".toList <:+: (Listing.render tokens).toList
  fails : (∃ misfit, Source.encode tokens = .error misfit) ↔
    ∃ index token, isParameter tokens index = true ∧ tokens[index]? = some token ∧
      ¬ (-128 ≤ token ∧ token ≤ 255)
  refused : ∀ misfit, Source.encode tokens = .error misfit ↔ FirstOutside tokens misfit

theorem missing_not_shown
    (standard : ∀ placed ∈ ofTokens tokens, placed.instruction.IsStandard) :
    ¬ "<missing>".toList <:+: (Listing.render tokens).toList := by
  intro inside
  have bracket : '<' ∈ (Listing.render tokens).toList := inside.subset (by decide)
  rw [Listing.render, String.toList_ofList, List.mem_flatMap] at bracket
  obtain ⟨line, member, inside⟩ := bracket
  obtain ⟨placed, found, rfl⟩ := List.mem_map.1 member
  rcases List.mem_append.1 inside with own | newline
  · rcases Listing.mem_line own with plain | other | ⟨⟨op, truncated⟩, -⟩
    · exact absurd plain (by decide)
    · exact absurd other (by decide)
    · exact (standard placed found).ne_truncated op truncated
  · exact absurd newline (by decide)

/-- An assembled stream is well formed: its operations are five-bit codes with their parameters
behind them, its labels can be told, no run of it misses a parameter, its listing has one line for
each line of the text that is not blank and shows all operands, and the encoder refuses it for its
parameters alone. -/
theorem wellFormed_of_assemble (assembled : assemble text = .ok tokens) :
    WellFormed text tokens := by
  obtain ⟨canonical, standard, count⟩ := standard_of_assemble assembled
  have all : ∀ placed ∈ ofTokens tokens, ∀ op, placed.instruction ≠ .truncated op :=
    fun placed member => (standard placed member).ne_truncated
  have coded := isCoded_of_standard canonical standard
  refine ⟨coded, ?_, ?_, ?_, missing_not_shown standard, encode_fails_iff coded, ?_⟩
  · cases resolved : Labels.ofTokens? tokens with
    | some labels => exact ⟨labels, rfl⟩
    | none =>
      obtain ⟨placed, member, cut⟩ := Labels.ofTokens?_eq_none_iff.1 resolved
      exact absurd cut (all placed member .lbl)
  · intro σ _ i failure op comes missing
    obtain ⟨placed, member, cut⟩ := Interpreter.exists_truncated_of_comes comes missing
    exact all placed member op cut
  · refine ⟨Listing.lines tokens, Listing.lines_render tokens, ?_⟩
    rw [Listing.lines, List.length_map, count]
  · intro misfit
    rw [Source.encode_eq_error_iff_firstLarge, firstLarge_iff coded]

/-- Mnemonics in either case, a bare code that names no operation and one that does, comments, blank
lines, and two parameters without room. -/
theorem wellFormed_of_assemble_mixed_lines :
    assemble " LbL 1 ; start\n\n23\n ; blo\n5 -129\njMP 256\n" =
        .ok [16, 1, 23, 5, -129, 17, 256] ∧
      (∃ shown, Text.lines (Listing.render [16, 1, 23, 5, -129, 17, 256]).toList = shown ++ [[]] ∧
        shown.length = 4) ∧
      Source.encode [16, 1, 23, 5, -129, 17, 256] = .error ⟨4, -129, 8⟩ := by
  have assembled : assemble " LbL 1 ; start\n\n23\n ; blo\n5 -129\njMP 256\n" =
      .ok [16, 1, 23, 5, -129, 17, 256] := by
    decide +kernel
  have wellFormed := wellFormed_of_assemble assembled
  have count : (Text.lines " LbL 1 ; start\n\n23\n ; blo\n5 -129\njMP 256\n".toList).countP
      (!isBlankLine ·) = 4 := by
    decide +kernel
  have first : FirstOutside [16, 1, 23, 5, -129, 17, 256] ⟨4, -129, 8⟩ := by
    have room : ∀ index < 4, ([16, 1, 23, 5, -129, 17, 256] : List Token)[index]?.all fun token =>
        decide (-128 ≤ token ∧ token ≤ 255) := by
      decide
    refine ⟨by decide +kernel, rfl, by decide, rfl, ?_⟩
    intro index earlier token own present
    simpa [present] using room index earlier
  exact ⟨assembled, count ▸ wellFormed.listed, (wellFormed.refused _).2 first⟩

end AwaLang.Assembly
