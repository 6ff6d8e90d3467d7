import AwaLang.Bubble.Basic
import AwaLang.Proofs.Text.Pieces

namespace AwaLang

namespace Text

def integers? (text : List Char) : Option (List Int) := (words text).mapM signed?

/-- A numeral is neither empty nor cut by a blank, so the integers of a list come back one by one.
Nothing is written for the empty list, in which no word is read. -/
theorem integers?_intercalate (values : List Int) :
    integers? ([' '].intercalate (values.map numeral)) = some values := by
  have whole : words ([' '].intercalate (values.map numeral)) = values.map numeral := by
    apply words_intercalate
    · intro text member
      obtain ⟨n, -, rfl⟩ := List.mem_map.1 member
      exact numeral_ne_nil n
    · intro text member c inside
      obtain ⟨n, -, rfl⟩ := List.mem_map.1 member
      exact isBlank_eq_false_of_isPlain (isPlain_of_mem_numeral inside)
  have each : signed? ∘ numeral = pure := funext signed?_numeral
  calc
    integers? ([' '].intercalate (values.map numeral)) = values.mapM (signed? ∘ numeral) := by
      rw [integers?, whole, List.mapM_map]
    _ = some (values.map id) := by
      rw [each]
      exact List.mapM_pure
    _ = some values := by rw [List.map_id]

end Text

namespace Bubble

theorem integers?_text (b : Bubble) : Text.integers? b.text.toList = some b.flatten := by
  rw [text, String.toList_ofList, numerals]
  exact Text.integers?_intercalate b.flatten

/-- Bubbles are printed alike exactly if they have the same integers in the same order, however
these are nested. -/
theorem text_eq_iff (a b : Bubble) : a.text = b.text ↔ a.flatten = b.flatten := by
  constructor
  · intro same
    have read : some a.flatten = some b.flatten := by
      rw [← integers?_text a, same, integers?_text b]
    exact Option.some.inj read
  · intro same
    rw [text, text, numerals, numerals, same]

/-- An empty double is not seen, neither beside a scalar nor all alone. -/
example :
    (double [double [], scalar (-1), double [double [scalar 20]]]).text = "-1 20" ∧
      (double [double []]).text = (double []).text := by
  decide +kernel

end Bubble

end AwaLang
