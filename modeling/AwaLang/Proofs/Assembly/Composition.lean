import AwaLang.Assembly
import AwaLang.Proofs.Text.Pieces

namespace AwaLang.Assembly

def Fault.below (above : Nat) (fault : Fault) : Fault := { fault with line := fault.line + above }

theorem assembleLines_append (number : Nat) (first second : List (List Char)) :
    assembleLines number (first ++ second) =
      match assembleLines number first with
      | .error fault => .error fault
      | .ok front => (assembleLines (number + first.length) second).map (front ++ ·) := by
  induction first generalizing number with
  | nil =>
    change assembleLines number second = (assembleLines number second).map ([] ++ ·)
    cases assembleLines number second <;> rfl
  | cons line first ih =>
    have place : number + (line :: first).length = number + 1 + first.length := by
      rw [List.length_cons]
      omega
    rw [List.cons_append, assembleLines, assembleLines, place]
    cases assembleLine line with
    | error cause => rfl
    | ok tokens =>
      simp only [ih]
      cases assembleLines (number + 1) first with
      | error fault => rfl
      | ok front =>
        simp only [Except.map]
        cases assembleLines (number + 1 + first.length) second with
        | error fault => rfl
        | ok back => exact congrArg Except.ok (List.append_assoc tokens front back).symm

theorem assembleLines_add (number above : Nat) (lines : List (List Char)) :
    assembleLines (number + above) lines =
      (assembleLines number lines).mapError (.below above) := by
  induction lines generalizing number with
  | nil => rfl
  | cons line lines ih =>
    rw [assembleLines, assembleLines]
    cases assembleLine line with
    | error cause => rfl
    | ok tokens =>
      simp only [Nat.add_right_comm number above 1, ih]
      cases assembleLines (number + 1) lines <;> rfl

theorem length_lines (text : List Char) :
    (Text.lines text).length = 1 + text.count '\n' :=
  Text.length_pieces (· == '\n') text

/-- A text above another one is assembled first, and its fault is that of the whole. The other one
gives its tokens behind it, or its fault, with the lines of both counted. -/
theorem assemble_newline (first second : String) :
    assemble (first ++ "\n" ++ second) =
      match assemble first with
      | .error fault => .error fault
      | .ok front =>
        match assemble second with
        | .error fault => .error { fault with line := fault.line + (1 + first.toList.count '\n') }
        | .ok back => .ok (front ++ back) := by
  have lines : Text.lines (first ++ "\n" ++ second).toList =
      Text.lines first.toList ++ Text.lines second.toList := by
    rw [String.toList_append, String.toList_append, List.append_assoc]
    exact Text.pieces_append_mark _ first.toList second.toList '\n' rfl
  have place := assembleLines_add 1 (1 + first.toList.count '\n') (Text.lines second.toList)
  rw [assemble, lines, assembleLines_append, length_lines, place, ← assemble, ← assemble]
  cases assemble first with
  | error fault => rfl
  | ok front => cases assemble second <;> rfl

/-- A carriage return is white space at the end of its line, and no line of its own. -/
example :
    assemble ("blo 3\r" ++ "\n" ++ "; none\r\npop 1\r") =
      .error ⟨3, .unexpectedOperand ['1']⟩ := by
  rfl

end AwaLang.Assembly
