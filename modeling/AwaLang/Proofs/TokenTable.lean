import AwaLang.Proofs.Instruction.Parameters
import AwaLang.Proofs.Text.Pieces
import AwaLang.TokenTable

namespace AwaLang

namespace TokenTable

def ShowsParameter (coloured : Bool) (tokens : List Token) (index : Nat) : Prop :=
  ∃ shown, (rows coloured tokens)[index]? = some shown ∧ "PARAM".toList <:+: shown

/-- A capital letter of the title of parameters that stands nowhere else in a row. -/
def mark : Char := 'M'

theorem mark_not_mem_numeral (n : Int) : mark ∉ Text.numeral n := by
  intro member
  exact absurd (Text.isPlain_of_mem_numeral member) (by decide)

theorem mark_not_mem_nameOf (token : Token) : mark ∉ Opcode.nameOf token := by
  unfold Opcode.nameOf
  split
  · rename_i op known
    cases op <;> decide
  · exact mark_not_mem_numeral _

theorem mark_not_mem_address (index : Nat) : mark ∉ (Nat.toDigits 10 index).leftpad 4 '0' := by
  intro member
  rcases List.mem_append.1 member with zero | digit
  · have same := (List.mem_replicate.1 zero).2
    contradiction
  · exact mark_not_mem_numeral index digit

theorem mark_not_mem_row {kind : Kind} (plain : kind ≠ .parameter) (coloured : Bool) (index : Nat)
    {role : Role} {token : Token} (own : Kind.of role token = kind) :
    mark ∉ row coloured index role token := by
  have title : mark ∉ kind.title.rightpad 8 ' ' := by
    cases kind with
    | parameter => exact absurd rfl plain
    | opcode | invalid => decide
  have colour : mark ∉ if coloured then kind.colour else [] := by
    cases coloured <;> cases kind <;> decide
  have ending : mark ∉ if coloured then reset else [] := by cases coloured <;> decide
  have value : mark ∉ (Text.numeral token).leftpad 5 ' ' := by
    intro member
    rcases List.mem_append.1 member with space | digit
    · have same := (List.mem_replicate.1 space).2
      contradiction
    · exact mark_not_mem_numeral token digit
  have name : mark ∉ kind.label token := by
    cases kind with
    | parameter => exact List.not_mem_nil
    | opcode | invalid => exact mark_not_mem_nameOf token
  have others : mark ≠ '[' ∧ mark ≠ ']' ∧ mark ≠ ' ' := by decide
  have address := mark_not_mem_address index
  simp only [row, own, List.mem_append, List.mem_cons, List.not_mem_nil, or_false, not_or]
  simp only [others, address, colour, title, value, name, ending, not_false_eq_true, and_self]

theorem getElem?_rows (coloured : Bool) (tokens : List Token) (index : Nat) :
    (rows coloured tokens)[index]? =
      tokens[index]?.map (row coloured index (Role.atIndex tokens index)) := by
  rw [rows, List.getElem?_map, List.getElem?_zipIdx, Role.getElem?_assign]
  cases tokens[index]? <;> simp

theorem title_infix_row (coloured : Bool) (index : Nat) (token : Token) :
    "PARAM".toList <:+: row coloured index .parameter token := by
  have title : "PARAM".toList <:+: Kind.parameter.title.rightpad 8 ' ' := ⟨[], [' ', ' ', ' '], rfl⟩
  apply title.trans
  -- Behind the title stand the value, the name and the end of the colour.
  apply List.infix_append_of_infix_left
  apply List.infix_append_of_infix_left
  apply List.infix_append_of_infix_left
  exact List.infix_append_right

theorem showsParameter_iff {tokens : List Token} {index : Nat} (inside : index < tokens.length)
    (coloured : Bool) : ShowsParameter coloured tokens index ↔ isParameter tokens index = true := by
  have shown : (rows coloured tokens)[index]? =
      some (row coloured index (Role.atIndex tokens index) tokens[index]) := by
    rw [getElem?_rows, List.getElem?_eq_getElem inside, Option.map_some]
  constructor
  · rintro ⟨text, present, title⟩
    rw [shown, Option.some.injEq] at present
    by_contra plain
    have role : Role.atIndex tokens index = .opcode := by simp [Role.atIndex, plain]
    have other : Kind.of .opcode tokens[index] ≠ .parameter := by
      unfold Kind.of
      split <;> simp_all
    rw [← present, role] at title
    have seen : mark ∈ "PARAM".toList := by decide
    exact mark_not_mem_row other coloured index rfl (title.subset seen)
  · intro own
    refine ⟨_, shown, ?_⟩
    rw [Role.atIndex, own, if_pos rfl]
    exact title_infix_row coloured index _

end TokenTable

end AwaLang
