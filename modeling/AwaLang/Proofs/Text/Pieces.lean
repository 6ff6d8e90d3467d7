import AwaLang.Text.Blank
import AwaLang.Text.Numeral

namespace AwaLang.Text

theorem pieces_eq_splitOnP (cut : Char → Bool) (text : List Char) :
    pieces cut text = text.splitOnP cut := by
  induction text with
  | nil => rfl
  | cons c text ih => rw [pieces_cons, ih, List.splitOnP_cons_eq_if_modifyHead]

theorem length_pieces (cut : Char → Bool) (text : List Char) :
    (pieces cut text).length = 1 + text.countP cut := by
  induction text with
  | nil => rfl
  | cons c text ih =>
    rw [pieces_cons]
    cases mark : cut c with
    | true => rw [if_pos rfl, List.length_cons, ih, List.countP_cons_of_pos mark, Nat.add_assoc]
    | false =>
      rw [if_neg Bool.false_ne_true, List.length_modifyHead, ih,
        List.countP_cons_of_neg (Bool.not_eq_true _ ▸ mark)]

theorem lines_intercalate {texts : List (List Char)} (whole : ∀ text ∈ texts, '\n' ∉ text)
    (some : texts ≠ []) : lines (['\n'].intercalate texts) = texts := by
  rw [lines, pieces_eq_splitOnP]
  exact List.splitOn_intercalate '\n' whole some

/-- A newline behind each line leaves an empty one at the end. -/
theorem lines_flatMap_newline {texts : List (List Char)} (whole : ∀ text ∈ texts, '\n' ∉ text) :
    lines (texts.flatMap (· ++ ['\n'])) = texts ++ [[]] := by
  induction texts with
  | nil => rfl
  | cons text texts ih =>
    rw [List.forall_mem_cons] at whole
    have own : pieces (· == '\n') text = [text] := by
      rw [pieces_eq_splitOnP, List.splitOnP_eq_singleton]
      intro c member
      exact beq_false_of_ne (ne_of_mem_of_not_mem member whole.1)
    calc
      lines ((text :: texts).flatMap (· ++ ['\n'])) =
          pieces (· == '\n') (text ++ '\n' :: texts.flatMap (· ++ ['\n'])) := by simp [lines]
      _ = pieces (· == '\n') text ++ lines (texts.flatMap (· ++ ['\n'])) :=
        pieces_append_mark _ _ _ _ rfl
      _ = text :: texts ++ [[]] := by rw [own, ih whole.2]; rfl

theorem words_append_blank (left right : List Char) {c : Char} (blank : isBlank c) :
    words (left ++ c :: right) = words left ++ words right := by
  rw [words, pieces_append_mark isBlank left right c blank, List.filter_append]
  rfl

theorem words_eq_singleton {text : List Char} (some : text ≠ [])
    (solid : ∀ c ∈ text, isBlank c = false) : words text = [text] := by
  rw [words, pieces_eq_splitOnP, List.splitOnP_eq_singleton solid]
  simp [some]

theorem words_intercalate {texts : List (List Char)} (some : ∀ text ∈ texts, text ≠ [])
    (solid : ∀ text ∈ texts, ∀ c ∈ text, isBlank c = false) :
    words ([' '].intercalate texts) = texts := by
  induction texts with
  | nil => rfl
  | cons text texts ih =>
    rw [List.forall_mem_cons] at some solid
    have first : words text = [text] := words_eq_singleton some.1 solid.1
    cases texts with
    | nil => rw [List.intercalate_singleton, first]
    | cons next rest =>
      calc
        words ([' '].intercalate (text :: next :: rest)) =
            words (text ++ ' ' :: [' '].intercalate (next :: rest)) := by
          rw [List.intercalate_cons_cons, List.append_assoc, List.singleton_append]
        _ = words text ++ words ([' '].intercalate (next :: rest)) :=
          words_append_blank _ _ (by decide)
        _ = text :: next :: rest := by
          rw [first, ih some.2 solid.2, List.singleton_append]

theorem words_eq_nil_iff {text : List Char} : words text = [] ↔ text.all isBlank := by
  induction text with
  | nil => simp [words]
  | cons c text ih =>
    rw [List.all_cons]
    cases blank : isBlank c with
    | true =>
      have skipped : words (c :: text) = words text := words_append_blank [] text blank
      rw [skipped, ih, Bool.true_and]
    | false =>
      rw [words, pieces_cons, blank, if_neg Bool.false_ne_true, Bool.false_and]
      cases split : pieces isBlank text with
      | nil => exact absurd split (pieces_ne_nil isBlank text)
      | cons piece rest => simp

theorem dropWhile_isBlank {left text right : List Char} (blank : ∀ c ∈ left, isBlank c = true)
    (some : text ≠ []) (solid : ∀ c ∈ text, isBlank c = false) :
    (left ++ (text ++ right)).dropWhile isBlank = text ++ right := by
  rw [List.dropWhile_append_of_pos blank]
  cases text with
  | nil => exact absurd rfl some
  | cons c text =>
    rw [List.forall_mem_cons] at solid
    rw [List.cons_append, List.dropWhile_cons_of_neg (by rw [solid.1]; exact Bool.false_ne_true)]

theorem trim_of_solid {left text right : List Char} (before : ∀ c ∈ left, isBlank c = true)
    (after : ∀ c ∈ right, isBlank c = true) (some : text ≠ [])
    (solid : ∀ c ∈ text, isBlank c = false) : trim (left ++ text ++ right) = text := by
  have backwards : (right.reverse ++ (text.reverse ++ [])).dropWhile isBlank = text.reverse ++ [] :=
    dropWhile_isBlank (fun c member => after c (List.mem_reverse.1 member))
      (List.reverse_ne_nil_iff.2 some) fun c member => solid c (List.mem_reverse.1 member)
  rw [List.append_nil] at backwards
  rw [trim, List.append_assoc, dropWhile_isBlank before some solid, List.reverse_append, backwards,
    List.reverse_reverse]

def isPlain (c : Char) : Bool := c.isDigit || (97 ≤ c.toNat && c.toNat ≤ 122) || c == '-'

theorem bounds_of_isPlain {c : Char} (plain : isPlain c) : 45 ≤ c.toNat ∧ c.toNat ≤ 122 := by
  simp only [isPlain, Char.isDigit, Bool.or_eq_true, Bool.and_eq_true, decide_eq_true_eq,
    beq_iff_eq, ge_iff_le, UInt32.le_iff_toNat_le] at plain
  change ((48 ≤ c.toNat ∧ c.toNat ≤ 57) ∨ (97 ≤ c.toNat ∧ c.toNat ≤ 122)) ∨ c = '-' at plain
  rcases plain with inside | rfl
  · omega
  · decide

theorem isBlank_eq_false_of_bounds {c : Char} (low : 33 ≤ c.toNat) (high : c.toNat ≤ 126) :
    isBlank c = false := by
  simp only [isBlank, Bool.or_eq_false_iff, Bool.and_eq_false_iff, decide_eq_false_iff_not,
    beq_eq_false_iff_ne]
  omega

theorem isBlank_eq_false_of_isPlain {c : Char} (plain : isPlain c) : isBlank c = false := by
  obtain ⟨low, high⟩ := bounds_of_isPlain plain
  exact isBlank_eq_false_of_bounds (by omega) (by omega)

theorem isPlain_of_mem_toDigits {n : Nat} {c : Char} (member : c ∈ Nat.toDigits 10 n) :
    isPlain c := by
  have digit := Nat.isDigit_of_mem_toDigits (by decide) (by decide) member
  simp [isPlain, digit]

theorem isPlain_of_mem_numeral {n : Int} {c : Char} (member : c ∈ numeral n) : isPlain c := by
  cases n with
  | ofNat n => exact isPlain_of_mem_toDigits member
  | negSucc n =>
    rcases List.mem_cons.1 member with rfl | digit
    · rfl
    · exact isPlain_of_mem_toDigits digit

theorem numeral_ne_nil (n : Int) : numeral n ≠ [] := by
  cases n with
  | ofNat n => exact Nat.toDigits_ne_nil
  | negSucc n => exact List.cons_ne_nil _ _

end AwaLang.Text
