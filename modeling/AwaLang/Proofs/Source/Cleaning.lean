import AwaLang.Source.Clean
import Mathlib.Data.List.Chain

namespace AwaLang.Source

def Allowed (c : Char) : Prop := c = 'a' ∨ c = 'w' ∨ c = '~' ∨ c = ' '

def SingleSpaced (text : List Char) : Prop := text.IsChain fun c d => ¬(c = ' ' ∧ d = ' ')

structure IsClean (text : List Char) : Prop where
  letters : ∀ c ∈ text, Allowed c
  spaced : SingleSpaced text

theorem isClean_nil : IsClean [] := ⟨by simp, List.IsChain.nil⟩

/-- Collapsing keeps the first character, so whether a space goes is told by the text itself. -/
theorem head?_collapse (text : List Char) : (collapse text).head? = text.head? := by
  induction text with
  | nil => rfl
  | cons c text ih =>
    change (if c = ' ' && (collapse text).head? == some ' ' then collapse text
      else c :: collapse text).head? = some c
    split
    · rename_i doubled
      simp only [Bool.and_eq_true, decide_eq_true_eq, beq_iff_eq] at doubled
      rw [doubled.1, doubled.2]
    · rfl

theorem collapse_cons (c : Char) (text : List Char) :
    collapse (c :: text) =
      if c = ' ' ∧ text.head? = some ' ' then collapse text else c :: collapse text := by
  rw [← head?_collapse text]
  change (if c = ' ' && (collapse text).head? == some ' ' then collapse text
    else c :: collapse text) = _
  simp only [Bool.and_eq_true, decide_eq_true_eq, beq_iff_eq]

theorem singleSpaced_collapse (text : List Char) : SingleSpaced (collapse text) := by
  induction text with
  | nil => exact List.IsChain.nil
  | cons c text ih =>
    rw [collapse_cons]
    split
    · exact ih
    · rename_i single
      refine List.isChain_cons.2 ⟨?_, ih⟩
      rintro d next ⟨first, rfl⟩
      exact single ⟨first, head?_collapse text ▸ next⟩

theorem collapse_eq_self {text : List Char} (spaced : SingleSpaced text) :
    collapse text = text := by
  induction text with
  | nil => rfl
  | cons c text ih =>
    obtain ⟨next, rest⟩ := List.isChain_cons.1 spaced
    rw [collapse_cons, if_neg, ih rest]
    rintro ⟨first, second⟩
    exact next ' ' second ⟨first, rfl⟩

theorem collapse_append_collapse (first second : List Char) :
    collapse (first ++ collapse second) = collapse (first ++ second) := by
  induction first with
  | nil => exact collapse_eq_self (singleSpaced_collapse second)
  | cons c first ih =>
    rw [List.cons_append, List.cons_append, collapse_cons, collapse_cons, ih,
      ← head?_collapse (first ++ collapse second), ih, head?_collapse]

theorem collapse_collapse_append (first second : List Char) :
    collapse (collapse first ++ second) = collapse (first ++ second) := by
  induction first with
  | nil => rfl
  | cons c first ih =>
    rw [collapse_cons, List.cons_append, collapse_cons c (first ++ second)]
    split
    · rename_i doubled
      cases first with
      | nil => simp at doubled
      | cons d first => rw [if_pos ⟨doubled.1, doubled.2⟩, ih]
    · rename_i single
      rw [List.cons_append, collapse_cons, ih, ← head?_collapse (collapse first ++ second), ih,
        head?_collapse]

theorem keep_eq_some {c d : Char} (kept : keep c = some d) : Allowed d := by
  unfold keep at kept
  split at kept
  · rw [Option.some.injEq] at kept
    exact .inr (.inr (.inr kept.symm))
  · simp only [Bool.or_eq_true, decide_eq_true_eq] at kept
    split at kept
    · rename_i letter
      rw [Option.some.injEq] at kept
      subst kept
      rcases letter with (a | w) | tilde
      · exact .inl a
      · exact .inr (.inl w)
      · exact .inr (.inr (.inl tilde))
    · contradiction

theorem keep_eq_self {c : Char} (letter : Allowed c) : keep c = some c := by
  rcases letter with rfl | rfl | rfl | rfl <;> decide

theorem filterMap_keep_eq_self {text : List Char}
    (letters : ∀ c ∈ text, Allowed c) : text.filterMap keep = text := by
  have same : text.filterMap keep = text.filterMap some :=
    List.filterMap_congr fun c member => keep_eq_self (letters c member)
  rw [same, List.filterMap_some]

theorem mem_of_mem_collapse {c : Char} {text : List Char} (member : c ∈ collapse text) :
    c ∈ text := by
  induction text with
  | nil => exact member
  | cons d text ih =>
    rw [collapse_cons] at member
    split at member
    · exact List.mem_cons_of_mem d (ih member)
    · rcases List.mem_cons.1 member with rfl | inside
      · exact List.mem_cons_self
      · exact List.mem_cons_of_mem d (ih inside)

theorem isClean_clean (text : List Char) : IsClean (clean text) where
  letters := by
    intro c member
    obtain ⟨d, -, kept⟩ := List.mem_filterMap.1 (mem_of_mem_collapse member)
    exact keep_eq_some kept
  spaced := singleSpaced_collapse (text.filterMap keep)

theorem clean_eq_self {text : List Char} (cleaned : IsClean text) : clean text = text := by
  rw [clean, filterMap_keep_eq_self cleaned.letters, collapse_eq_self cleaned.spaced]

theorem clean_append_eq_collapse (first second : List Char) :
    clean (first ++ second) = collapse (clean first ++ clean second) := by
  rw [clean, clean, clean, collapse_collapse_append, collapse_append_collapse,
    List.filterMap_append]

theorem clean_append (first second : List Char) :
    clean (first ++ second) = clean (clean first ++ clean second) := by
  have letters : ∀ c ∈ clean first ++ clean second, Allowed c := by
    intro c member
    rcases List.mem_append.1 member with left | right
    · exact (isClean_clean first).letters c left
    · exact (isClean_clean second).letters c right
  rw [clean_append_eq_collapse, clean.eq_def (clean first ++ clean second),
    filterMap_keep_eq_self letters]

theorem prefix_collapse_append {first : List Char} (spaced : SingleSpaced first)
    (second : List Char) : first <+: collapse (first ++ second) := by
  induction first with
  | nil => exact List.nil_prefix
  | cons c first ih =>
    obtain ⟨next, rest⟩ := List.isChain_cons.1 spaced
    rw [List.cons_append, collapse_cons]
    split
    · rename_i doubled
      -- The space that goes is the last character, and the one that stays is in its place.
      cases first with
      | nil =>
        rw [List.nil_append] at doubled ⊢
        obtain ⟨rfl, more⟩ := doubled
        rw [← head?_collapse] at more
        obtain ⟨later, whole⟩ := List.head?_eq_some_iff.1 more
        exact ⟨later, whole.symm⟩
      | cons d first => exact absurd ⟨doubled.1, Option.some.inj doubled.2⟩ (next d rfl)
    · exact (List.prefix_cons_inj c).2 (ih rest)

theorem clean_prefix (first second : List Char) : clean first <+: clean (first ++ second) := by
  rw [clean_append_eq_collapse]
  exact prefix_collapse_append (isClean_clean first).spaced (clean second)

theorem IsClean.append {first second : List Char} (left : IsClean first) (right : IsClean second)
    (last : first.getLast? ≠ some ' ') : IsClean (first ++ second) where
  letters := by
    intro c member
    rcases List.mem_append.1 member with inside | inside
    · exact left.letters c inside
    · exact right.letters c inside
  spaced := by
    refine List.isChain_append.2 ⟨left.spaced, right.spaced, ?_⟩
    rintro c final d - ⟨rfl, -⟩
    exact last final

theorem toLower_cases (c : Char) :
    c.toLower = c ∨ 65 ≤ c.toNat ∧ c.toNat ≤ 90 ∧ c.toLower.toNat = c.toNat + 32 := by
  unfold Char.toLower
  split
  · rename_i capital
    have bound : c.toNat ≤ 90 := capital.2
    refine .inr ⟨capital.1, bound, ?_⟩
    change (c.val + 32).toNat = c.toNat + 32
    rw [UInt32.toNat_add]
    exact Nat.mod_eq_of_lt (Nat.lt_of_le_of_lt (Nat.add_le_add_right bound 32) (by decide))
  · exact .inl rfl

/-- Characters that a program ignores, apart from white space. -/
def Quiet (c : Char) : Prop := c ∉ ['a', 'A', 'w', 'W', '~']

theorem Quiet.toLower_ne {c e : Char} (quiet : Quiet c)
    (letter : e = 'a' ∨ e = 'w' ∨ e = '~') : c.toLower ≠ e := by
  intro lower
  apply quiet
  rcases toLower_cases c with same | ⟨-, bound, capital⟩
  · rw [← same, lower]
    rcases letter with rfl | rfl | rfl <;> decide
  · rw [lower] at capital
    have named : c = Char.ofNat (e.toNat - 32) := by
      rw [capital, Nat.add_sub_cancel, Char.ofNat_toNat]
    rw [named]
    rcases letter with rfl | rfl | rfl
    · decide
    · decide
    · have tilde : '~'.toNat = 126 := rfl
      omega

theorem keep_quiet {c d : Char} (quiet : Quiet c) (kept : keep c = some d) : d = ' ' := by
  unfold keep at kept
  split at kept
  · rw [Option.some.injEq] at kept
    exact kept.symm
  · simp [quiet.toLower_ne] at kept

theorem clean_quiet {text : List Char} (quiet : ∀ c ∈ text, Quiet c) :
    clean text = [] ∨ clean text = [' '] := by
  have spaces : ∀ c ∈ clean text, c = ' ' := by
    intro c member
    obtain ⟨d, inside, kept⟩ := List.mem_filterMap.1 (mem_of_mem_collapse member)
    exact keep_quiet (quiet d inside) kept
  have spaced := (isClean_clean text).spaced
  generalize clean text = cleaned at spaces spaced
  match cleaned with
  | [] => exact .inl rfl
  | [c] => exact .inr (by rw [spaces c List.mem_cons_self])
  | c :: d :: rest =>
    have apart := (List.isChain_cons_cons.1 spaced).1
    exact absurd ⟨spaces c (by simp), spaces d (by simp)⟩ apart

end AwaLang.Source
