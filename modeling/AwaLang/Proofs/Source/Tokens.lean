import AwaLang.Proofs.Except
import AwaLang.Proofs.Source.Syllables

/-!
Tokens made of syllables. `Spells` says without a decoder or an encoder which syllables make up
which tokens; gathering finds these tokens, and spelling finds these syllables.
-/

namespace AwaLang

def Role.after (role : Role) (tokens : List Token) : Role := tokens.foldl Role.next role

namespace Source

open Syllable

/-- Syllables that make up tokens, the first of them in `role`. Each token takes as many syllables
as its role has bits, with a sign at most in front, and it is the number they spell. -/
inductive Spells : Role → List Token → List Syllable → Prop
  | nil {role : Role} : Spells role [] []
  | cons {role : Role} {units rest : List Syllable} {tokens : List Token}
      (width : units.length = role.width) (front : .sign ∉ units.tail)
      (later : Spells (role.next (number units)) tokens rest) :
      Spells role (number units :: tokens) (units ++ rest)

theorem gather_cons {role : Role} {bits : Nat} {s : Syllable} (allowed : s = .sign → bits = 0)
    (value : Int) (position : Nat) (rest : List Syllable) :
    gather role bits value position (s :: rest) =
      if bits + 1 < role.width then
        gather role (bits + 1) (extend value s) (position + s.text.length) rest
      else
        (gather (role.next (extend value s)) 0 0 (position + s.text.length) rest).map
          (.cons (extend value s)) := by
  have fine : (s = .sign && bits != 0) = false := by
    by_cases sign : s = .sign
    · simp [allowed sign]
    · simp [sign]
  rw [gather, fine]
  rfl

theorem gather_append {role : Role} {bits : Nat} {units : List Syllable}
    (front : .sign ∈ units → bits = 0 ∧ .sign ∉ units.tail)
    (short : bits + units.length < role.width)
    (value : Int) (position : Nat) (rest : List Syllable) :
    gather role bits value position (units ++ rest) =
      gather role (bits + units.length) (units.foldl extend value)
        (position + (spell units).length) rest := by
  induction units generalizing bits value position with
  | nil => rfl
  | cons s units ih =>
    rw [List.length_cons] at short
    have allowed : s = .sign → bits = 0 := by
      rintro rfl
      exact (front List.mem_cons_self).1
    have plain : .sign ∉ units := fun inside =>
      (front (List.mem_cons_of_mem s inside)).2 inside
    rw [List.cons_append, gather_cons allowed, if_pos (by omega),
      ih (fun inside => absurd inside plain) (by omega), List.foldl_cons, spell_cons,
      List.length_append, List.length_cons]
    congr 1 <;> omega

theorem gather_leftover {role : Role} {left : List Syllable} (front : .sign ∉ left.tail)
    (short : left.length < role.width) (position : Nat) :
    gather role 0 0 position left = .ok ⟨[], left.length⟩ := by
  have counted := @gather_append role 0 left (fun _ => ⟨rfl, front⟩) (by omega) 0 position []
  rw [List.append_nil, Nat.zero_add] at counted
  exact counted

theorem gather_number {role : Role} {units : List Syllable} (width : units.length = role.width)
    (front : .sign ∉ units.tail) (position : Nat) (rest : List Syllable) :
    gather role 0 0 position (units ++ rest) =
      (gather (role.next (number units)) 0 0 (position + (spell units).length) rest).map
        (.cons (number units)) := by
  rcases List.eq_nil_or_concat units with rfl | ⟨before, last, rfl⟩
  · exact absurd width (Nat.ne_of_lt role.width_pos)
  · rw [List.concat_eq_append] at *
    rw [List.length_append, List.length_singleton] at width
    have plain : .sign ∉ before.tail := fun inside =>
      front (List.tail_append_of_ne_nil (List.ne_nil_of_mem (List.mem_of_mem_tail inside)) ▸
        List.mem_append_left [last] inside)
    have allowed : last = .sign → 0 + before.length = 0 := by
      rintro rfl
      cases before with
      | nil => rfl
      | cons s before => exact absurd (List.mem_append_right before List.mem_cons_self) front
    rw [List.append_assoc, gather_append (fun _ => ⟨rfl, plain⟩) (by omega), List.singleton_append,
      gather_cons allowed, if_neg (by omega), number, List.foldl_append, spell_append,
      List.length_append, Nat.add_assoc]
    simp [spell]

theorem gather_misplaced {role : Role} {units : List Syllable} (front : .sign ∉ units.tail)
    (begun : units ≠ []) (short : units.length < role.width) (position : Nat)
    (rest : List Syllable) :
    gather role 0 0 position (units ++ .sign :: rest) =
      .error (.misplacedSign (position + (spell units).length)) := by
  have counted : 0 + units.length ≠ 0 := by
    have := List.length_pos_iff.2 begun
    omega
  rw [gather_append (fun _ => ⟨rfl, front⟩) (by omega), gather, if_pos]
  simp only [decide_true, Bool.true_and, bne_iff_ne]
  exact counted

theorem syllables_cases (role : Role) (syllables : List Syllable) :
    (syllables.length < role.width ∧ .sign ∉ syllables.tail) ∨
    (∃ units rest, syllables = units ++ rest ∧ units.length = role.width ∧ .sign ∉ units.tail) ∨
    (∃ units rest, syllables = units ++ .sign :: rest ∧ units.length < role.width ∧ units ≠ [] ∧
      .sign ∉ units.tail) := by
  by_cases inside : .sign ∈ (syllables.take role.width).tail
  · right; right
    cases syllables with
    | nil => simp at inside
    | cons s more =>
      have positive := role.width_pos
      rw [List.take_cons positive, List.tail_cons] at inside
      obtain ⟨plain, later, cut, first⟩ := List.eq_append_cons_of_mem inside
      have length := congrArg List.length cut
      rw [List.length_take, List.length_append, List.length_cons] at length
      refine ⟨s :: plain, later ++ more.drop (role.width - 1), ?_, ?_, List.cons_ne_nil s plain,
        first⟩
      · have whole := List.take_append_drop (role.width - 1) more
        rw [cut, List.append_assoc, List.cons_append] at whole
        rw [List.cons_append, whole]
      · rw [List.length_cons]
        omega
  · rcases Nat.lt_or_ge syllables.length role.width with short | enough
    · left
      rw [List.take_of_length_le (Nat.le_of_lt short)] at inside
      exact ⟨short, inside⟩
    · right; left
      exact ⟨syllables.take role.width, syllables.drop role.width,
        (List.take_append_drop role.width syllables).symm, List.length_take_of_le enough, inside⟩

theorem gather_of_spells {role : Role} {tokens : List Token} {units left : List Syllable}
    (spells : Spells role tokens units) (short : left.length < (role.after tokens).width)
    (front : .sign ∉ left.tail) (position : Nat) :
    gather role 0 0 position (units ++ left) = .ok ⟨tokens, left.length⟩ := by
  induction spells generalizing position with
  | nil => exact gather_leftover front short position
  | cons width ahead later ih =>
    rw [List.append_assoc, gather_number width ahead, ih short]
    rfl

theorem spells_of_gather {role : Role} {position : Nat} {syllables : List Syllable}
    {decoded : Decoded} (gathered : gather role 0 0 position syllables = .ok decoded) :
    ∃ units left, syllables = units ++ left ∧ Spells role decoded.tokens units ∧
      left.length < (role.after decoded.tokens).width ∧ .sign ∉ left.tail := by
  rcases syllables_cases role syllables with ⟨short, front⟩ | ⟨units, rest, rfl, width, front⟩ |
    ⟨units, rest, rfl, short, begun, front⟩
  · rw [gather_leftover front short, Except.ok.injEq] at gathered
    subst gathered
    exact ⟨[], syllables, rfl, .nil, short, front⟩
  · rw [gather_number width front] at gathered
    obtain ⟨inner, next, rfl⟩ := exists_of_map_eq_ok gathered
    have shorter : rest.length < (units ++ rest).length := by
      have positive := role.width_pos
      rw [List.length_append]
      omega
    obtain ⟨later, left, rfl, spells, short, ahead⟩ := spells_of_gather next
    exact ⟨units ++ later, left, by rw [List.append_assoc], .cons width front spells, short, ahead⟩
  · rw [gather_misplaced front begun short] at gathered
    contradiction
termination_by syllables.length

theorem spellings_ok_iff {index : Nat} {entries : List (Role × Token)} {units : List Syllable} :
    spellings index entries = .ok units ↔
      (∀ entry ∈ entries, entry.1.fits entry.2) ∧
        units = entries.flatMap fun entry => spelling entry.1.width entry.2 := by
  induction entries generalizing index units with
  | nil =>
    constructor
    · intro spelled
      exact ⟨List.forall_mem_nil _, (Except.ok.inj spelled).symm⟩
    · rintro ⟨-, rfl⟩
      rfl
  | cons entry rest ih =>
    obtain ⟨role, token⟩ := entry
    rw [spellings, List.forall_mem_cons, List.flatMap_cons]
    split
    · rename_i fits
      constructor
      · intro spelled
        obtain ⟨more, later, rfl⟩ := exists_of_map_eq_ok spelled
        obtain ⟨all, rfl⟩ := ih.1 later
        exact ⟨⟨fits, all⟩, rfl⟩
      · rintro ⟨⟨-, all⟩, rfl⟩
        rw [ih.2 ⟨all, rfl⟩]
        rfl
    · rename_i misfit
      constructor
      · intro spelled
        contradiction
      · rintro ⟨⟨fits, -⟩, -⟩
        exact absurd fits misfit

/-- Syllables make up tokens exactly when the tokens fit their roles, and then they are the spelling
of these tokens: nothing is spelled in two ways. -/
theorem spells_iff {role : Role} {tokens : List Token} {units : List Syllable} :
    Spells role tokens units ↔
      (∀ entry ∈ role.assign tokens, entry.1.fits entry.2) ∧
        units = (role.assign tokens).flatMap fun entry => spelling entry.1.width entry.2 := by
  constructor
  · intro spells
    induction spells with
    | nil => simp [Role.assign]
    | cons width front later ih =>
      obtain ⟨fits, same⟩ := spelling_number width front
      rw [Role.assign, List.forall_mem_cons, List.flatMap_cons, same, ← ih.2]
      exact ⟨⟨fits, ih.1⟩, rfl⟩
  · rintro ⟨fits, rfl⟩
    induction tokens generalizing role with
    | nil => exact .nil
    | cons token tokens ih =>
      rw [Role.assign, List.forall_mem_cons] at fits
      have first : number (spelling role.width token) = token := number_spelling fits.1
      have later := ih fits.2
      rw [← first] at later
      have whole := Spells.cons (length_spelling role token)
        (sign_not_mem_tail_spelling role.width token) later
      rwa [first] at whole

/-- The syllables behind the tokens of a program. They complete no token. -/
def padding (tokens : List Token) : List Syllable := if tokens.isEmpty then [] else [.zero]

theorem spell_padding (tokens : List Token) :
    spell (padding tokens) = if tokens.isEmpty then [] else Syllable.zero.text := by
  cases tokens <;> rfl

theorem length_padding_lt (tokens : List Token) (role : Role) :
    (padding tokens).length < role.width := by
  cases role <;> cases tokens <;> simp [padding, Role.width]

theorem encode_ok_iff {tokens : List Token} {source : String} :
    encode tokens = .ok source ↔
      ∃ units, Spells .opcode tokens units ∧
        source = String.ofList (startMarker ++ spell (units ++ padding tokens)) := by
  simp only [spell_append, spell_padding, ← List.append_assoc]
  rw [encode]
  cases spelled : spellings 0 (Role.assign .opcode tokens) with
  | error misfit =>
    constructor
    · intro encoded
      contradiction
    · rintro ⟨units, spells, -⟩
      rw [spellings_ok_iff.2 (spells_iff.1 spells)] at spelled
      contradiction
  | ok units =>
    constructor
    · intro encoded
      exact ⟨units, spells_iff.2 (spellings_ok_iff.1 spelled), (Except.ok.inj encoded).symm⟩
    · rintro ⟨others, spells, rfl⟩
      rw [spellings_ok_iff.2 (spells_iff.1 spells), Except.ok.injEq] at spelled
      subst spelled
      rfl

end Source

end AwaLang
