import AwaLang.Proofs.Instruction.Parameters
import AwaLang.Proofs.Source.RoundTrip

/-!
The widths of tokens, as they show in what is encoded and decoded. The encoder refuses a token for
its width, or writes as many syllables for it; the decoder completes a token with as many syllables.
Both have eight for a parameter and five for any other token.
-/

namespace AwaLang

theorem Syllable.spell_injective {first second : List Syllable}
    (same : spell first = spell second) : first = second := by
  have reading (syllables : List Syllable) :
      read (spell syllables ++ ['w', 'a']) = ⟨syllables, ['w', 'a']⟩ := by
    rw [read_spell_append syllables _ (by decide), read_short (by decide), List.append_nil]
  have equal := reading first
  rw [same, reading second, Reading.mk.injEq] at equal
  exact equal.1.symm

namespace Role

theorem take_assign (role : Role) (tokens : List Token) (count : Nat) :
    (assign role tokens).take count = assign role (tokens.take count) := by
  induction tokens generalizing role count with
  | nil => simp [assign]
  | cons token tokens ih =>
    cases count with
    | zero => rfl
    | succ count => simp [assign, ih]

theorem assign_take_succ {tokens : List Token} {index : Nat} {token : Token}
    (present : tokens[index]? = some token) :
    assign .opcode (tokens.take (index + 1)) =
      assign .opcode (tokens.take index) ++ [(atIndex tokens index, token)] := by
  rw [← take_assign, ← take_assign, List.take_add_one, getElem?_assign, present]
  rfl

theorem assign_eq_append {tokens : List Token} {index : Nat} {token : Token}
    (present : tokens[index]? = some token) :
    assign .opcode tokens =
      assign .opcode (tokens.take index) ++
        (atIndex tokens index, token) :: (assign .opcode tokens).drop (index + 1) := by
  have entry := getElem?_assign tokens index
  rw [present, Option.map_some, List.getElem?_eq_some_iff] at entry
  obtain ⟨inside, entry⟩ := entry
  rw [← take_assign, ← entry, List.getElem_cons_drop, List.take_append_drop]

end Role

namespace Source

open Syllable

/-- The numbers that so many bits have room for: a negative one gives the first bit to its sign. -/
def Fits (width : Nat) (token : Int) : Prop := -2 ^ (width - 1) ≤ token ∧ token < 2 ^ width

theorem fits_iff (role : Role) (token : Int) : role.fits token ↔ Fits role.width token := by
  cases role
  · rw [Role.fits_opcode]
    simp only [Fits, Role.width, Nat.reduceSub, Int.reducePow, Int.reduceNeg]
    omega
  · rw [Role.fits_parameter]
    simp only [Fits, Role.width, Nat.reduceSub, Int.reducePow, Int.reduceNeg]
    omega

def written (tokens : List Token) (units : List Syllable) : String :=
  String.ofList (startMarker ++ spell (units ++ padding tokens))

theorem encode_eq_written_iff {tokens : List Token} {units : List Syllable} :
    encode tokens = .ok (written tokens units) ↔ Spells .opcode tokens units := by
  rw [encode_ok_iff]
  constructor
  · rintro ⟨others, spells, same⟩
    have text := List.append_cancel_left (String.ofList_injective same)
    have equal := List.append_cancel_right (spell_injective text)
    exact equal ▸ spells
  · intro spells
    exact ⟨units, spells, rfl⟩

theorem encode_eq_error_iff {tokens : List Token} {misfit : Misfit} :
    encode tokens = .error misfit ↔ spellings 0 (Role.assign .opcode tokens) = .error misfit := by
  rw [encode]
  cases spellings 0 (Role.assign .opcode tokens) with
  | error own =>
    constructor
    · intro refused
      exact congrArg Except.error (Except.error.inj refused)
    · intro refused
      exact congrArg Except.error (Except.error.inj refused)
  | ok units =>
    constructor
    · intro refused
      contradiction
    · intro refused
      contradiction

theorem spellings_misfit {front rest : List (Role × Token)} {role : Role} {token : Token}
    (fits : ∀ entry ∈ front, entry.1.fits entry.2) (large : ¬ role.fits token) (index : Nat) :
    spellings index (front ++ (role, token) :: rest) =
      .error ⟨index + front.length, token, role.width⟩ := by
  induction front generalizing index with
  | nil => rw [List.nil_append, spellings, if_neg large, List.length_nil, Nat.add_zero]
  | cons entry front ih =>
    rw [List.forall_mem_cons] at fits
    rw [List.cons_append, spellings, if_pos fits.1, ih fits.2, List.length_cons]
    simp only [Except.map, Nat.add_assoc, Nat.add_comm 1]

theorem exists_front_of_spellings {index : Nat} {entries : List (Role × Token)} {misfit : Misfit}
    (refused : spellings index entries = .error misfit) :
    ∃ front role token rest, entries = front ++ (role, token) :: rest ∧
      (∀ entry ∈ front, entry.1.fits entry.2) ∧ ¬ role.fits token ∧
      misfit = ⟨index + front.length, token, role.width⟩ := by
  induction entries generalizing index with
  | nil => contradiction
  | cons entry rest ih =>
    obtain ⟨role, token⟩ := entry
    rw [spellings] at refused
    split at refused
    · rename_i fits
      cases later : spellings (index + 1) rest with
      | ok units => simp [later, Except.map] at refused
      | error own =>
        simp only [later, Except.map, Except.error.injEq] at refused
        obtain ⟨front, other, value, behind, whole, room, large, place⟩ := ih (refused ▸ later)
        refine ⟨(role, token) :: front, other, value, behind, ?_, ?_, large, ?_⟩
        · rw [whole, List.cons_append]
        · exact List.forall_mem_cons.2 ⟨fits, room⟩
        · rw [place, List.length_cons, Nat.add_assoc, Nat.add_comm 1]
    · rename_i large
      rw [Except.error.injEq] at refused
      exact ⟨[], role, token, rest, rfl, List.forall_mem_nil _, large, refused.symm⟩

theorem entry_of_misfit {index : Nat} {entries : List (Role × Token)} {misfit : Misfit}
    (refused : spellings index entries = .error misfit) :
    ∃ offset role, misfit.index = index + offset ∧ misfit.width = role.width ∧
      entries[offset]? = some (role, misfit.value) := by
  obtain ⟨front, role, token, rest, whole, -, -, rfl⟩ := exists_front_of_spellings refused
  refine ⟨front.length, role, rfl, rfl, ?_⟩
  rw [whole, List.getElem?_append_right (Nat.le_refl _), Nat.sub_self, List.getElem?_cons_zero]

/-- The encoder gives a token so many bits. It refuses the token for lack of room in them, or it
writes as many syllables for it behind those of the tokens before. -/
inductive EncodesIn (tokens : List Token) (index width : Nat) : Prop
  | refused {token : Token} (present : tokens[index]? = some token) (large : ¬ Fits width token)
      (misfit : encode tokens = .error ⟨index, token, width⟩)
  | written {token : Token} {before own : List Syllable} (present : tokens[index]? = some token)
      (room : Fits width token)
      (front : encode (tokens.take index) = .ok (written (tokens.take index) before))
      (length : own.length = width) (value : number own = token)
      (whole : encode (tokens.take (index + 1)) =
        .ok (Source.written (tokens.take (index + 1)) (before ++ own)))

theorem encodesIn_width {tokens : List Token} {index : Nat} (inside : index < tokens.length)
    {source : String} (reached : encode (tokens.take index) = .ok source) :
    EncodesIn tokens index (Role.atIndex tokens index).width := by
  have present := List.getElem?_eq_getElem inside
  obtain ⟨before, spells, -⟩ := encode_ok_iff.1 reached
  obtain ⟨fits, spelled⟩ := spells_iff.1 spells
  by_cases room : (Role.atIndex tokens index).fits tokens[index]
  · have whole : Spells .opcode (tokens.take (index + 1))
        (before ++ spelling (Role.atIndex tokens index).width tokens[index]) := by
      apply spells_iff.2
      rw [Role.assign_take_succ present, List.flatMap_append, ← spelled, List.flatMap_singleton]
      constructor
      · intro entry member
        rcases List.mem_append.1 member with earlier | last
        · exact fits entry earlier
        · rw [List.mem_singleton.1 last]
          exact room
      · rfl
    exact .written present ((fits_iff _ _).1 room) (encode_eq_written_iff.2 spells)
      (length_spelling _ _) (number_spelling room) (encode_eq_written_iff.2 whole)
  · have misfit : encode tokens =
        .error ⟨index, tokens[index], (Role.atIndex tokens index).width⟩ := by
      rw [encode_eq_error_iff, Role.assign_eq_append present, spellings_misfit fits room,
        Role.length_assign, List.length_take, Nat.zero_add, Nat.min_eq_left (Nat.le_of_lt inside)]
    exact .refused present (fun small => room ((fits_iff _ _).2 small)) misfit

theorem encodesIn_iff {tokens : List Token} {index : Nat} (inside : index < tokens.length)
    {source : String} (reached : encode (tokens.take index) = .ok source) (width : Nat) :
    EncodesIn tokens index width ↔ width = (Role.atIndex tokens index).width := by
  constructor
  · intro encodes
    cases encodes with
    | refused present large misfit =>
      obtain ⟨offset, role, place, width, entry⟩ := entry_of_misfit (encode_eq_error_iff.1 misfit)
      rw [Nat.zero_add] at place
      subst place
      rw [Role.getElem?_assign, present, Option.map_some, Option.some.injEq, Prod.mk.injEq] at entry
      rw [entry.1]
      exact width
    | written present room front length value whole =>
      have before := (spells_iff.1 (encode_eq_written_iff.1 front)).2
      have both := (spells_iff.1 (encode_eq_written_iff.1 whole)).2
      rw [Role.assign_take_succ present, List.flatMap_append, ← before,
        List.flatMap_singleton] at both
      rw [← length, List.append_cancel_left both]
      exact length_spelling _ _
  · rintro rfl
    exact encodesIn_width inside reached

/-- The decoder makes a token of each piece: the first pieces complete as many tokens, and none of
their syllables is left over. -/
structure Completes (tokens : List Token) (pieces : List (List Syllable)) : Prop where
  count : pieces.length = tokens.length
  tokens : ∀ count position, gather .opcode 0 0 position (pieces.take count).flatten =
    .ok ⟨tokens.take count, 0⟩

theorem exists_pieces_of_spells {role : Role} {tokens : List Token} {units : List Syllable}
    (spells : Spells role tokens units) :
    ∃ pieces : List (List Syllable), pieces.flatten = units ∧
      pieces.map List.length = (role.assign tokens).map (·.1.width) ∧
      ∀ count, Spells role (tokens.take count) (pieces.take count).flatten := by
  induction spells with
  | nil =>
    refine ⟨[], rfl, rfl, ?_⟩
    intro count
    rw [List.take_nil, List.take_nil]
    exact .nil
  | @cons role own rest tokens width front later ih =>
    obtain ⟨pieces, whole, widths, each⟩ := ih
    refine ⟨own :: pieces, by rw [List.flatten_cons, whole], ?_, ?_⟩
    · rw [List.map_cons, widths, Role.assign, List.map_cons, width]
    · intro count
      cases count with
      | zero => exact .nil
      | succ count =>
        rw [List.take_succ_cons, List.take_succ_cons, List.flatten_cons]
        exact .cons width front (each count)

theorem exists_pieces_of_decode {source : String} {tokens : List Token}
    (decoded : decode source = .ok tokens) :
    ∃ skipped body pieces, Opens (clean source.toList) skipped body ∧
      pieces.flatten <+: (read body).syllables ∧ Completes tokens pieces ∧
      ∀ index < tokens.length,
        pieces[index]?.map List.length = some (Role.atIndex tokens index).width := by
  obtain ⟨all, found, rfl⟩ := exists_of_map_eq_ok decoded
  rw [decodeAll, decodeCleaned] at found
  cases place : afterMarker 0 (clean source.toList) with
  | none => simp [place] at found
  | some opened =>
    obtain ⟨position, body⟩ := opened
    simp only [place] at found
    obtain ⟨skipped, opens, -⟩ := opens_of_afterMarker place
    obtain ⟨units, rest, -, spells, reading, -⟩ := decodeBody_eq_ok found
    obtain ⟨pieces, whole, widths, each⟩ := exists_pieces_of_spells spells
    refine ⟨skipped, body, pieces, opens, ?_, ⟨?_, ?_⟩, ?_⟩
    · rw [whole, reading]
      exact List.prefix_append units _
    · simpa using congrArg List.length widths
    · intro count position
      have gathered := @gather_of_spells .opcode _ _ [] (each count) (Role.width_pos _)
        List.not_mem_nil position
      rwa [List.append_nil] at gathered
    · intro index inside
      rw [← List.getElem?_map, widths, List.getElem?_map, Role.getElem?_assign,
        List.getElem?_eq_getElem inside]
      rfl

end Source

end AwaLang
