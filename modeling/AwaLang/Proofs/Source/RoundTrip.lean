import AwaLang.Proofs.Source.Cleaning
import AwaLang.Proofs.Source.Opening
import AwaLang.Proofs.Source.Tokens

namespace AwaLang.Source

open Syllable

theorem isClean_text_append (s : Syllable) {rest : List Char} (cleaned : IsClean rest) :
    IsClean (s.text ++ rest) := by
  have own : IsClean s.text := by
    constructor
    · cases s <;> simp [text, Allowed]
    · cases s <;> simp [text, SingleSpaced]
  refine own.append cleaned ?_
  cases s <;> decide

theorem isClean_spell_append (syllables : List Syllable) {rest : List Char}
    (cleaned : IsClean rest) : IsClean (spell syllables ++ rest) := by
  induction syllables with
  | nil => exact cleaned
  | cons s syllables ih =>
    rw [spell_cons, List.append_assoc]
    exact isClean_text_append s ih

theorem isClean_startMarker_append (syllables : List Syllable) {rest : List Char}
    (cleaned : IsClean rest) : IsClean (startMarker ++ (spell syllables ++ rest)) := by
  have marker : IsClean startMarker := ⟨by simp [startMarker, Allowed], by
    simp [startMarker, SingleSpaced]⟩
  exact marker.append (isClean_spell_append syllables cleaned) (by decide)

theorem clean_encoded_append {source trailing : List Char} {syllables : List Syllable}
    (spelled : source = startMarker ++ spell syllables) (quiet : ∀ c ∈ trailing, Quiet c) :
    ∃ rest, clean (source ++ trailing) = startMarker ++ (spell syllables ++ rest) ∧
      rest.length ≤ 1 := by
  have whole : IsClean source := by
    rw [spelled, ← List.append_nil (spell syllables)]
    exact isClean_startMarker_append syllables isClean_nil
  have space : IsClean [' '] := ⟨by simp [Allowed], List.isChain_singleton ' '⟩
  have ended (rest : List Char) (cleaned : IsClean rest) :
      clean (source ++ rest) = startMarker ++ (spell syllables ++ rest) := by
    rw [spelled, List.append_assoc]
    exact clean_eq_self (isClean_startMarker_append syllables cleaned)
  rw [clean_append, clean_eq_self whole]
  rcases clean_quiet quiet with none | one
  · rw [none]
    exact ⟨[], ended [] isClean_nil, Nat.zero_le 1⟩
  · rw [one]
    exact ⟨[' '], ended [' '] space, Nat.le_refl 1⟩

/-- The padding makes the last syllable before it readable, and is read itself. -/
theorem read_padded {role : Role} {tokens : List Token} {units : List Syllable}
    (spells : Spells role tokens units) {rest : List Char} (short : rest.length < 4) :
    read (spell (units ++ padding tokens) ++ rest) = ⟨units ++ padding tokens, rest⟩ := by
  cases spells with
  | nil => exact read_short short
  | cons width front later =>
    rw [padding, List.isEmpty_cons, if_neg Bool.false_ne_true, spell_append, List.append_assoc]
    have zero : read (spell [.zero] ++ rest) = ⟨[.zero], rest⟩ := by
      rw [spell_cons, List.append_assoc, read_text_append, spell, List.flatMap_nil,
        List.nil_append, read_short short]
      · rfl
      · simp [text]
    rw [read_spell_append _ _ (by simp [spell, text]), zero]

theorem decodeBody_padded {tokens : List Token} {units : List Syllable}
    (spells : Spells .opcode tokens units) {rest : List Char} (short : rest.length < 4)
    (position : Nat) :
    decodeBody position (spell (units ++ padding tokens) ++ rest) =
      .ok ⟨tokens, (padding tokens).length⟩ := by
  have front : .sign ∉ (padding tokens).tail := by cases tokens <;> simp [padding]
  have gathered := gather_of_spells spells (length_padding_lt tokens _) front position
  simp only [decodeBody, read_padded spells short, gathered, bind, Except.bind, short, if_true,
    pure, Except.pure]

/-- What is encoded decodes to the same tokens, whatever quiet text is put behind it. -/
theorem decode_encode_append {tokens : List Token} {source trailing : String}
    (encoded : encode tokens = .ok source) (quiet : ∀ c ∈ trailing.toList, Quiet c) :
    decode (source ++ trailing) = .ok tokens := by
  obtain ⟨units, spells, rfl⟩ := encode_ok_iff.1 encoded
  obtain ⟨rest, cleaned, short⟩ := clean_encoded_append String.toList_ofList quiet
  rw [decode, decodeAll, String.toList_append, cleaned, decodeCleaned, afterMarker_startMarker]
  simp only [decodeBody_padded spells (Nat.lt_of_le_of_lt short (by decide)), Except.map]

theorem decode_encode_truncated :
    encode [-1, 5] = .ok "awa ~wawawawawa awa awawa awawa awa" ∧
      decode ("awa ~wawawawawa awa awawa awawa awa" ++ "\n!") = .ok [-1, 5] := by
  have encoded : encode [-1, 5] = .ok "awa ~wawawawawa awa awawa awawa awa" := by rfl
  exact ⟨encoded, decode_encode_append encoded (by simp [Quiet])⟩

theorem decodeBody_eq_ok {position : Nat} {body : List Char} {decoded : Decoded}
    (ok : decodeBody position body = .ok decoded) :
    ∃ units rest, body = spell units ++ rest ∧ Spells .opcode decoded.tokens units ∧
      read body = ⟨units ++ (read rest).syllables, (read rest).rest⟩ ∧
      (read rest).syllables.length < (Role.after .opcode decoded.tokens).width := by
  cases gathered : gather .opcode 0 0 position (read body).syllables with
  | error fault => simp [decodeBody, gathered, bind, Except.bind] at ok
  | ok found =>
    simp only [decodeBody, gathered, bind, Except.bind, pure, Except.pure] at ok
    split at ok
    · rw [Except.ok.injEq] at ok
      subst ok
      obtain ⟨units, left, cut, spells, short, -⟩ := spells_of_gather gathered
      have reading : read body = ⟨units ++ left, (read body).rest⟩ := by rw [← cut]
      have later := read_of_read_append reading
      have whole := spell_read body
      rw [cut, spell_append, List.append_assoc] at whole
      refine ⟨units, spell left ++ (read body).rest, whole.symm, spells, ?_, ?_⟩
      · rw [later]
        exact reading
      · rw [later]
        exact short
    · contradiction

/-- What is decoded fits its roles and is encoded as the text it was decoded from: from the first
start marker on, as far as that text completes tokens. What is behind them is too short for another
token. -/
theorem encode_decode {source : String} {tokens : List Token}
    (decoded : decode source = .ok tokens) :
    (∀ token : Int, (.opcode, token) ∈ Role.assign .opcode tokens → -16 ≤ token ∧ token ≤ 31) ∧
    (∀ token : Int, (.parameter, token) ∈ Role.assign .opcode tokens →
      -128 ≤ token ∧ token ≤ 255) ∧
    ∃ skipped units rest,
      Opens (clean source.toList) skipped (spell units ++ rest) ∧
      Spells .opcode tokens units ∧
      read (spell units ++ rest) = ⟨units ++ (read rest).syllables, (read rest).rest⟩ ∧
      (read rest).syllables.length < (Role.after .opcode tokens).width ∧
      encode tokens = .ok (String.ofList (startMarker ++ spell units ++
        if tokens.isEmpty then [] else Syllable.zero.text)) := by
  obtain ⟨all, found, rfl⟩ := exists_of_map_eq_ok decoded
  rw [decodeAll, decodeCleaned] at found
  cases place : afterMarker 0 (clean source.toList) with
  | none => simp [place] at found
  | some opened =>
    obtain ⟨position, body⟩ := opened
    simp only [place] at found
    obtain ⟨skipped, opens, -⟩ := opens_of_afterMarker place
    obtain ⟨units, rest, rfl, spells, reading, short⟩ := decodeBody_eq_ok found
    have fits := (spells_iff.1 spells).1
    refine ⟨?_, ?_, skipped, units, rest, opens, spells, reading, short, ?_⟩
    · intro token member
      exact (Role.fits_opcode token).1 (fits _ member)
    · intro token member
      exact (Role.fits_parameter token).1 (fits _ member)
    · apply encode_ok_iff.2
      refine ⟨units, spells, ?_⟩
      rw [spell_append, spell_padding, List.append_assoc]

theorem encode_decode_signed :
    decode "w!awa awa awawa awawa ~wa awa awa awa awa awa awa awawa \n awa" = .ok [5, -128] ∧
      ∃ units, Spells .opcode [5, -128] units ∧
        encode [5, -128] =
          .ok (String.ofList (startMarker ++ spell units ++ Syllable.zero.text)) := by
  have decoded :
      decode "w!awa awa awawa awawa ~wa awa awa awa awa awa awa awawa \n awa" = .ok [5, -128] := by
    rfl
  obtain ⟨-, -, -, units, -, -, spells, -, -, encoded⟩ := encode_decode decoded
  exact ⟨decoded, units, spells, encoded⟩

end AwaLang.Source
