/-!
Syllables, the units that spell bits: `wa` for one, ` awa` for zero, and ` ~wa` for the sign that
opens a negative number. Reading takes syllables off a text for as long as four characters remain.
-/

namespace AwaLang

inductive Syllable
  | one
  | zero
  | sign
  deriving DecidableEq, Repr

namespace Syllable

def text : Syllable → List Char
  | one => ['w', 'a']
  | zero => [' ', 'a', 'w', 'a']
  | sign => [' ', '~', 'w', 'a']

def spell (syllables : List Syllable) : List Char := syllables.flatMap text

@[simp] theorem spell_cons (s : Syllable) (syllables : List Syllable) :
    spell (s :: syllables) = s.text ++ spell syllables := rfl

@[simp] theorem spell_append (first second : List Syllable) :
    spell (first ++ second) = spell first ++ spell second := List.flatMap_append

def extend (value : Int) : Syllable → Int
  | one => value * 2 + 1
  | zero => value * 2
  | sign => -1

structure Reading where
  syllables : List Syllable
  rest : List Char
  deriving DecidableEq, Repr

def Reading.cons (s : Syllable) (reading : Reading) : Reading :=
  ⟨s :: reading.syllables, reading.rest⟩

/-- The syllables at the start of a text. The last three characters are never read. -/
def read : List Char → Reading
  | a :: b :: c :: d :: rest =>
    if [a, b] = one.text then (read (c :: d :: rest)).cons one
    else if [a, b, c, d] = zero.text then (read rest).cons zero
    else if [a, b, c, d] = sign.text then (read rest).cons sign
    else ⟨[], a :: b :: c :: d :: rest⟩
  | rest => ⟨[], rest⟩

theorem spell_read (text : List Char) : spell (read text).syllables ++ (read text).rest = text := by
  fun_induction read text with
  | case1 a b c d rest first ih =>
    simp only [List.cons.injEq, text] at first
    simp_all [Reading.cons, spell, text]
  | case2 a b c d rest _ first ih => simp_all [Reading.cons, spell, text]
  | case3 a b c d rest _ _ first ih => simp_all [Reading.cons, spell, text]
  | case4 => rfl
  | case5 => rfl

end Syllable

end AwaLang
