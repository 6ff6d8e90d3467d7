import AwaLang.Proofs.Labels
import AwaLang.Proofs.Listing
import AwaLang.Proofs.Source.Widths
import AwaLang.Proofs.TokenTable

/-!
The walks over a stream. The token table, the encoder, the decoder, the listing and the label table
each go over the tokens in a way of their own. Main statement: all take the same tokens for
parameters.
-/

namespace AwaLang

open Instruction

/-- A token is a parameter for all who walk over a stream, or for none. The table says that it is
one; the encoder, if it gets there, and the decoder have eight bits for it and not five; no line of
the listing has its address; and neither the labels that jumps refer to nor those that are defined
are looked for there. -/
theorem parameters_agree (tokens : List Token) :
    (∀ index < tokens.length,
      (∀ coloured,
        TokenTable.ShowsParameter coloured tokens index ↔ isParameter tokens index = true) ∧
      (∀ reached, Source.encode (tokens.take index) = .ok reached →
        ∀ width, Source.EncodesIn tokens index width ↔
          width = if isParameter tokens index then 8 else 5) ∧
      (Listing.ShowsAddress tokens index ↔ isParameter tokens index = false) ∧
      ((∃ placed ∈ ofTokens tokens, placed.address = index) ↔
        isParameter tokens index = false)) ∧
    Listing.targets tokens =
      ((List.range tokens.length).filter (!isParameter tokens ·)).filterMap
        (fun index => (at? tokens index).bind target?) ∧
    (∀ labels, Labels.ofTokens? tokens = some labels → ∀ label, labels.find? label =
      (((List.range tokens.length).filter (!isParameter tokens ·)).filter fun index =>
        at? tokens index = some (.applied .lbl label)).getLast?.map (· + 1)) ∧
    ∀ source, Source.decode source = .ok tokens → ∃ skipped body pieces,
      Source.Opens (Source.clean source.toList) skipped body ∧
      pieces.flatten <+: (Syllable.read body).syllables ∧ Source.Completes tokens pieces ∧
      ∀ index < tokens.length,
        pieces[index]?.map List.length = some (if isParameter tokens index then 8 else 5) := by
  refine ⟨?_, Listing.targets_eq_filterMap tokens, ?_, ?_⟩
  · intro index inside
    have place : index ∈ operationIndices tokens ↔ isParameter tokens index = false := by
      rw [mem_operationIndices]
      exact and_iff_right inside
    refine ⟨TokenTable.showsParameter_iff inside, ?_, ?_, ?_⟩
    · intro source reached width
      rw [← Role.width_atIndex]
      exact Source.encodesIn_iff inside reached width
    · exact Listing.showsAddress_iff.trans place
    · rw [← place, ← addresses_ofTokens, List.mem_map]
  · intro labels resolved label
    exact Labels.find?_eq_operationIndices resolved label
  · intro source decoded
    obtain ⟨skipped, body, pieces, opens, front, completes, widths⟩ :=
      Source.exists_pieces_of_decode decoded
    refine ⟨skipped, body, pieces, opens, front, completes, ?_⟩
    intro index inside
    rw [← Role.width_atIndex]
    exact widths index inside

theorem parameters_agree_operation_code :
    TokenTable.ShowsParameter false [5, 16, 16, 5, 2] 1 ∧
    Source.EncodesIn [5, 16, 16, 5, 2] 1 8 ∧ ¬ Source.EncodesIn [5, 16, 16, 5, 2] 1 5 ∧
    ¬ Listing.ShowsAddress [5, 16, 16, 5, 2] 1 ∧
    (∃ labels, Labels.ofTokens? [5, 16, 16, 5, 2] = some labels ∧
      labels.find? 5 = some 3 ∧ labels.find? 16 = none) ∧
    ∃ pieces, Source.Completes [5, 16, 16, 5, 2] pieces ∧ pieces[1]?.map List.length = some 8 := by
  obtain ⟨indices, -, labels, sources⟩ := parameters_agree [5, 16, 16, 5, 2]
  obtain ⟨table, encoder, listing, -⟩ := indices 1 (by decide)
  have own : isParameter [5, 16, 16, 5, 2] 1 = true := by decide
  have reached : Source.encode (List.take 1 [5, 16, 16, 5, 2]) = .ok "awa awa awawa awawa awa" := by
    rfl
  have widths := encoder _ reached
  have resolved : Labels.ofTokens? [5, 16, 16, 5, 2] = some ⟨[(5, 3)]⟩ := by decide
  have decoded : Source.decode ("awa awa awawa awawa awa awa awawa awa awa awa awawa awa awa " ++
      "awa awa awa awa awa awa awawa awawa awa awa awawa awa awa") = .ok [5, 16, 16, 5, 2] := by
    decide +kernel
  obtain ⟨-, -, pieces, -, -, completes, lengths⟩ := sources _ decoded
  refine ⟨(table false).2 own, (widths 8).2 (by rw [own]; rfl), ?_, ?_, ⟨_, resolved, ?_, ?_⟩,
    pieces, completes, ?_⟩
  · intro five
    have width := (widths 5).1 five
    rw [own] at width
    exact absurd width (by decide)
  · intro shown
    have plain := listing.1 shown
    rw [own] at plain
    exact absurd plain (by decide)
  · rw [labels _ resolved]
    decide
  · rw [labels _ resolved]
    decide
  · rw [lengths 1 (by decide), own]
    rfl

end AwaLang
