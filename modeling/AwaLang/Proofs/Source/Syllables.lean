import AwaLang.Source.Encode
import Mathlib.Data.List.Induction
import Mathlib.Tactic.Ring

namespace AwaLang

namespace Syllable

theorem Reading.cons_injective (s : Syllable) {first second : Reading}
    (same : first.cons s = second.cons s) : first = second := by
  cases first
  cases second
  simpa [Reading.cons] using same

theorem read_short {text : List Char} (short : text.length < 4) : read text = ⟨[], text⟩ := by
  fun_cases read text with
  | case5 => rfl
  | _ => simp only [List.length_cons] at short; omega

theorem read_text_append (s : Syllable) (rest : List Char)
    (room : 4 ≤ (s.text ++ rest).length) : read (s.text ++ rest) = (read rest).cons s := by
  cases s with
  | one =>
    match rest, room with
    | c :: d :: rest, _ => simp [text, read]
  | zero => simp [text, read]
  | sign => simp [text, read]

/-- Two more characters keep the last syllable readable, whatever it is. -/
theorem read_spell_append (syllables : List Syllable) (rest : List Char)
    (room : 2 ≤ rest.length) :
    read (spell syllables ++ rest) = ⟨syllables ++ (read rest).syllables, (read rest).rest⟩ := by
  induction syllables with
  | nil => rfl
  | cons s syllables ih =>
    have enough : 4 ≤ (s.text ++ (spell syllables ++ rest)).length := by
      have two : 2 ≤ s.text.length := by cases s <;> decide
      simp only [List.length_append]
      omega
    rw [spell_cons, List.append_assoc, read_text_append s _ enough, ih]
    rfl

theorem read_of_read_append {text tail : List Char} {first second : List Syllable}
    (reading : read text = ⟨first ++ second, tail⟩) :
    read (spell second ++ tail) = ⟨second, tail⟩ := by
  have whole := spell_read text
  rw [reading] at whole
  induction first generalizing text with
  | nil =>
    have same : spell second ++ tail = text := whole
    rw [same, reading, List.nil_append]
  | cons s first ih =>
    simp only [List.cons_append, spell_cons, List.append_assoc] at whole
    have room : 4 ≤ text.length := by
      rcases Nat.lt_or_ge text.length 4 with short | room
      · rw [read_short short] at reading
        simp at reading
      · exact room
    rw [← whole] at reading room
    rw [read_text_append s _ room] at reading
    have inner : read (spell (first ++ second) ++ tail) = ⟨first ++ second, tail⟩ :=
      Reading.cons_injective s reading
    exact ih inner rfl

def number (syllables : List Syllable) : Int := syllables.foldl extend 0

end Syllable

namespace Role

theorem width_pos (role : Role) : 0 < role.width := by cases role <;> decide

theorem fits_opcode (token : Int) : opcode.fits token ↔ -16 ≤ token ∧ token ≤ 31 := by
  rw [fits, Bool.and_eq_true, decide_eq_true_iff, decide_eq_true_iff]
  exact Iff.rfl

theorem fits_parameter (token : Int) : parameter.fits token ↔ -128 ≤ token ∧ token ≤ 255 := by
  rw [fits, Bool.and_eq_true, decide_eq_true_iff, decide_eq_true_iff]
  exact Iff.rfl

end Role

namespace Source

open Syllable

@[simp] theorem length_bits (width : Nat) (value : Int) : (bits width value).length = width := by
  induction width generalizing value with
  | zero => rfl
  | succ width ih => simp [bits, ih]

theorem sign_not_mem_bits (width : Nat) (value : Int) : .sign ∉ bits width value := by
  induction width generalizing value with
  | zero => simp [bits]
  | succ width ih =>
    rw [bits, List.mem_append, List.mem_singleton]
    rintro (inside | last)
    · exact ih (value / 2) inside
    · split at last <;> contradiction

theorem foldl_bits (width : Nat) (value start : Int) :
    (bits width value).foldl extend start = start * 2 ^ width + value % 2 ^ width := by
  induction width generalizing value with
  | zero => simp [bits]
  | succ width ih =>
    have digit (low : Int) :
        extend low (if value % 2 = 1 then one else zero) = low * 2 + value % 2 := by
      rcases Int.emod_two_eq value with even | odd
      · simp [even, extend]
      · simp [odd, extend]
    have cut : value % 2 ^ (width + 1) = value / 2 % 2 ^ width * 2 + value % 2 := by
      rw [Int.pow_succ', Int.emod_def value (2 * 2 ^ width), Int.emod_def (value / 2),
        Int.ediv_ediv_of_nonneg (by decide), Int.mul_assoc]
      omega
    rw [bits, List.foldl_append, ih, List.foldl_cons, List.foldl_nil, digit, cut, Int.pow_succ]
    ring

theorem bits_foldl {syllables : List Syllable} (plain : .sign ∉ syllables) (start : Int) :
    bits syllables.length (syllables.foldl extend start) = syllables := by
  induction syllables using List.reverseRecOn with
  | nil => rfl
  | append_singleton syllables s ih =>
    have before : .sign ∉ syllables := fun inside => plain (List.mem_append_left [s] inside)
    rw [List.length_append, List.length_singleton, List.foldl_append, List.foldl_cons,
      List.foldl_nil, bits]
    generalize syllables.foldl extend start = value at ih
    cases s with
    | one =>
      have half : extend value one / 2 = value := by simp only [extend]; omega
      have odd : extend value one % 2 = 1 := by simp only [extend]; omega
      rw [half, odd, ih before, if_pos rfl]
    | zero =>
      have half : extend value zero / 2 = value := by simp only [extend]; omega
      have even : extend value zero % 2 = 0 := by simp only [extend]; omega
      rw [half, even, ih before, if_neg (by decide)]
    | sign => exact absurd (List.mem_append_right syllables (List.mem_singleton_self _)) plain

theorem foldl_bounds {syllables : List Syllable} (plain : .sign ∉ syllables) (start : Int) :
    start * 2 ^ syllables.length ≤ syllables.foldl extend start ∧
      syllables.foldl extend start < (start + 1) * 2 ^ syllables.length := by
  have value := foldl_bits syllables.length (syllables.foldl extend start) start
  rw [bits_foldl plain] at value
  have positive : (0 : Int) < 2 ^ syllables.length := Int.pow_pos (by decide)
  have low := Int.emod_nonneg (syllables.foldl extend start) positive.ne'
  have high := Int.emod_lt_of_pos (syllables.foldl extend start) positive
  rw [Int.add_mul]
  omega

theorem length_spelling (role : Role) (token : Token) :
    (spelling role.width token).length = role.width := by
  have positive := role.width_pos
  rw [spelling]
  split
  · rw [List.length_cons, length_bits]
    omega
  · exact length_bits role.width token

theorem sign_not_mem_tail_spelling (width : Nat) (token : Token) :
    .sign ∉ (spelling width token).tail := by
  rw [spelling]
  split
  · exact sign_not_mem_bits (width - 1) token
  · exact fun inside => sign_not_mem_bits width token (List.mem_of_mem_tail inside)

theorem number_spelling {role : Role} {token : Int} (fits : role.fits token) :
    number (spelling role.width token) = token := by
  rw [number, spelling]
  split
  · rw [List.foldl_cons, extend, foldl_bits]
    cases role <;> simp only [Role.fits_opcode, Role.fits_parameter, Role.width] at fits ⊢ <;> omega
  · rw [foldl_bits]
    cases role <;> simp only [Role.fits_opcode, Role.fits_parameter, Role.width] at fits ⊢ <;> omega

/-- Syllables of the width of a role, a sign at most in front, are the spelling of a token that fits
the role. -/
theorem spelling_number {role : Role} {syllables : List Syllable}
    (width : syllables.length = role.width) (front : .sign ∉ syllables.tail) :
    role.fits (number syllables) ∧ spelling role.width (number syllables) = syllables := by
  cases syllables with
  | nil => cases role <;> contradiction
  | cons s rest =>
    have length : rest.length = role.width - 1 := by
      rw [← width, List.length_cons, Nat.add_sub_cancel]
    rw [List.tail_cons] at front
    by_cases signed : s = .sign
    · -- The sign takes the first bit, so the bits behind it are counted up from minus one.
      subst s
      have value : number (sign :: rest) = rest.foldl extend (-1) := rfl
      have bounds := foldl_bounds front (-1)
      have spelled := bits_foldl front (-1)
      rw [length, ← value] at bounds spelled
      have negative : number (sign :: rest) < 0 := by omega
      constructor
      · cases role <;> simp only [Role.fits_opcode, Role.fits_parameter, Role.width] at bounds ⊢ <;>
          omega
      · rw [spelling, if_pos negative, spelled]
    · have plain : .sign ∉ s :: rest := by
        rw [List.mem_cons]
        rintro (same | inside)
        · exact signed same.symm
        · exact front inside
      have bounds := foldl_bounds plain 0
      have spelled := bits_foldl plain 0
      rw [width, ← number] at bounds spelled
      have natural : ¬ number (s :: rest) < 0 := by omega
      constructor
      · cases role <;> simp only [Role.fits_opcode, Role.fits_parameter, Role.width] at bounds ⊢ <;>
          omega
      · rw [spelling, if_neg natural, spelled]

end Source

end AwaLang
