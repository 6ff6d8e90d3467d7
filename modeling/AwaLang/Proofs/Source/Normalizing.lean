import AwaLang.Proofs.Source.Cleaning
import AwaLang.Proofs.Text.Pieces
import AwaLang.Source.Decode

/-!
Cleaned texts as normal forms. Cleaning is one pass from the front that only remembers whether it
wrote a space last. It can be done piece by piece, and it tells no two texts apart that differ in
the case of letters or in characters which are neither blanks nor letters of the language.
-/

namespace AwaLang.Source

theorem keep_toLower (c : Char) : keep c.toLower = keep c := by
  rcases toLower_cases c with same | ⟨low, high, lower⟩
  · rw [same]
  · have again : c.toLower.toLower = c.toLower :=
      (toLower_cases c.toLower).resolve_right (by omega)
    have capital : Text.isBlank c = false :=
      Text.isBlank_eq_false_of_bounds (by omega) (by omega)
    have small : Text.isBlank c.toLower = false :=
      Text.isBlank_eq_false_of_bounds (by omega) (by omega)
    rw [keep, keep, capital, small, again]

theorem clean_map_toLower (text : List Char) : clean (text.map Char.toLower) = clean text := by
  have same : keep ∘ Char.toLower = keep := funext keep_toLower
  rw [clean, clean, List.filterMap_map, same]

theorem keep_eq_none_iff {c : Char} : keep c = none ↔ Text.isBlank c = false ∧ Quiet c := by
  constructor
  · intro dropped
    constructor
    · cases blank : Text.isBlank c with
      | false => rfl
      | true => simp [keep, blank] at dropped
    · intro letter
      simp only [List.mem_cons, List.not_mem_nil, or_false] at letter
      rcases letter with rfl | rfl | rfl | rfl | rfl <;> exact absurd dropped (by decide)
  · rintro ⟨solid, quiet⟩
    simp [keep, solid, quiet.toLower_ne]

theorem clean_append_dropped {noise : List Char}
    (dropped : ∀ c ∈ noise, Text.isBlank c = false ∧ Quiet c) (before behind : List Char) :
    clean (before ++ noise ++ behind) = clean (before ++ behind) := by
  have nothing : noise.filterMap keep = [] :=
    List.filterMap_eq_nil_iff.2 fun c member => keep_eq_none_iff.2 (dropped c member)
  rw [clean, clean, List.filterMap_append, List.filterMap_append, nothing, List.append_nil,
    List.filterMap_append]

theorem decodeAll_clean (text : List Char) :
    decodeAll (String.ofList (clean text)) = decodeAll (String.ofList text) := by
  rw [decodeAll, decodeAll, String.toList_ofList, String.toList_ofList,
    clean_eq_self (isClean_clean text)]

theorem singleSpaced_iff {text : List Char} : SingleSpaced text ↔ ¬ [' ', ' '] <:+: text := by
  rw [SingleSpaced, List.isChain_iff_forall_rel_of_append_cons_cons]
  constructor
  · rintro apart ⟨front, behind, whole⟩
    rw [List.append_assoc] at whole
    exact apart whole.symm ⟨rfl, rfl⟩
  · rintro single c d front behind whole ⟨rfl, rfl⟩
    apply single
    exact ⟨front, behind, by rw [whole, List.append_assoc]; rfl⟩

/-- Cleaning leaves a text as it is if it is clean, and only then. -/
theorem clean_eq_self_iff {text : List Char} :
    clean text = text ↔
      (∀ c ∈ text, c = 'a' ∨ c = 'w' ∨ c = '~' ∨ c = ' ') ∧ ¬ [' ', ' '] <:+: text := by
  rw [← singleSpaced_iff]
  constructor
  · intro same
    have cleaned := isClean_clean text
    rw [same] at cleaned
    exact ⟨cleaned.letters, cleaned.spaced⟩
  · rintro ⟨letters, spaced⟩
    exact clean_eq_self ⟨letters, spaced⟩

/-- One pass over what the characters contribute, with a flag for a space that was written last. A
dropped character leaves the flag alone, so it ends no run of white space. -/
def sweep (spaced : Bool) : List (Option Char) → List Char
  | [] => []
  | none :: rest => sweep spaced rest
  | some d :: rest =>
    if d = ' ' then
      if spaced then sweep true rest else ' ' :: sweep true rest
    else d :: sweep false rest

theorem clean_cons {c d : Char} (kept : keep c = some d) (text : List Char) :
    clean (c :: text) = if d = ' ' ∧ (clean text).head? = some ' ' then clean text
      else d :: clean text := by
  rw [clean, List.filterMap_cons_some kept, collapse_cons, clean, head?_collapse]

theorem clean_cons_dropped {c : Char} (dropped : keep c = none) (text : List Char) :
    clean (c :: text) = clean text := by
  rw [clean, clean, List.filterMap_cons_none dropped]

/-- The pass writes what is left when the spaces in front of others are taken out. A flag that is
set stands for a space in front of the text. -/
theorem clean_eq_sweep (text : List Char) :
    clean text = sweep false (text.map keep) ∧
      clean (' ' :: text) = ' ' :: sweep true (text.map keep) := by
  induction text with
  | nil => exact ⟨rfl, rfl⟩
  | cons c text ih =>
    obtain ⟨plain, spaced⟩ := ih
    have space (rest : List Char) := clean_cons (show keep ' ' = some ' ' by decide) rest
    rw [List.map_cons]
    cases kept : keep c with
    | none =>
      rw [space, clean_cons_dropped kept, ← space]
      exact ⟨plain, spaced⟩
    | some d =>
      rw [sweep, sweep]
      by_cases blank : d = ' '
      · subst blank
        have own : clean (c :: text) = ' ' :: sweep true (text.map keep) := by
          rw [clean_cons kept, ← space, spaced]
        rw [space, own]
        exact ⟨rfl, rfl⟩
      · have own : clean (c :: text) = d :: sweep false (text.map keep) := by
          rw [clean_cons kept, if_neg (fun double => blank double.1), plain]
        have apart : ¬(' ' = ' ' ∧ (clean (c :: text)).head? = some ' ') := by
          rw [own]
          exact fun double => blank (Option.some.inj double.2)
        rw [space, if_neg apart, own, if_neg blank, if_neg blank]
        exact ⟨rfl, rfl⟩

/-- Cleaning takes a text to a normal form. It may be done in parts and again, and nothing is lost
that reading would see; neither characters that are dropped nor the case of letters show in it. -/
theorem clean_normalizes (first second : List Char) :
    clean (first ++ second) = clean (clean first ++ clean second) ∧
    clean (clean first) = clean first ∧
    decodeAll (String.ofList (clean first)) = decodeAll (String.ofList first) ∧
    decode (String.ofList (clean first)) = decode (String.ofList first) ∧
    (∀ c ∈ clean first, c = 'a' ∨ c = 'w' ∨ c = '~' ∨ c = ' ') ∧
    ¬ [' ', ' '] <:+: clean first ∧
    (clean first = first ↔
      (∀ c ∈ first, c = 'a' ∨ c = 'w' ∨ c = '~' ∨ c = ' ') ∧ ¬ [' ', ' '] <:+: first) ∧
    (∀ noise : List Char,
      (∀ c ∈ noise, Text.isBlank c = false ∧ c ∉ ['a', 'A', 'w', 'W', '~']) →
        clean (first ++ noise ++ second) = clean (first ++ second)) ∧
    ∀ other : List Char, other.map Char.toLower = first.map Char.toLower →
      clean other = clean first := by
  have cleaned := isClean_clean first
  have decoded := decodeAll_clean first
  refine ⟨clean_append first second, clean_eq_self cleaned, decoded, ?_, cleaned.letters,
    singleSpaced_iff.1 cleaned.spaced, clean_eq_self_iff, ?_, ?_⟩
  · rw [decode, decode, decoded]
  · intro noise dropped
    exact clean_append_dropped dropped first second
  · intro other same
    rw [← clean_map_toLower other, same, clean_map_toLower]

theorem clean_normalizes_noisy_run :
    clean (['A', 'w', ' ', '\t'] ++ ['.'] ++ ['\n', '~', 'A']) = ['a', 'w', ' ', '~', 'a'] ∧
      clean ['a', 'W', ' ', '\t'] = ['a', 'w', ' '] := by
  obtain ⟨-, -, -, -, -, -, -, noise, cased⟩ :=
    clean_normalizes ['A', 'w', ' ', '\t'] ['\n', '~', 'A']
  have quiet := noise ['.'] (List.forall_mem_singleton.2 (by decide))
  have lowered := cased ['a', 'W', ' ', '\t'] (by decide)
  exact ⟨quiet.trans (by decide), lowered.trans (by decide)⟩

end AwaLang.Source
