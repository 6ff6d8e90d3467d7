import AwaLang.Host.Buffer
import AwaLang.Proofs.Alphabet
import AwaLang.Proofs.Bubble.Normal
import AwaLang.Proofs.Machine.Runs
import AwaLang.Proofs.Text.Pieces

namespace AwaLang

namespace Bubble

variable {b : Bubble} {text : String}

theorem flatten_ofInts {values : List Int} (some : values ≠ []) :
    (ofInts values).flatten = values := by
  rw [ofInts, flatten_ofList _ (by simpa using some), List.flatMap_map]
  exact List.flatMap_singleton' values

theorem letters_eq_ok_iff :
    b.letters = .ok text ↔ text.toList.mapM Alphabet.indexOf = .ok b.flatten := by
  rw [mapM_eq_ok_comm fun _ _ => Alphabet.indexOf_eq_ok_iff, letters]
  constructor
  · intro spelled
    obtain ⟨chars, done, rfl⟩ := exists_of_map_eq_ok spelled
    rw [done, String.toList_ofList]
  · intro done
    rw [done]
    exact congrArg Except.ok String.ofList_toList

theorem ofInts_flatten
    (row : (∃ n, b = .scalar n) ∨ ∃ ns : List Int, 2 ≤ ns.length ∧ b = .double (ns.map .scalar)) :
    ofInts b.flatten = b := by
  rcases row with ⟨n, rfl⟩ | ⟨ns, several, rfl⟩
  · rfl
  · have taken : ofInts ns = .double (ns.map .scalar) :=
      ofList_of_two_le (by rw [List.length_map]; exact several)
    have some : ns ≠ [] := List.ne_nil_of_length_pos (by omega)
    rw [← taken, flatten_ofInts some]

@[simp] theorem text_scalar (n : Int) : (scalar n).text = String.ofList (Text.numeral n) := by
  simp [text, numerals, flatten]

end Bubble

namespace Effect

theorem lettersIn_of_letters {b : Bubble} {line : String} (spelled : b.letters = .ok line) :
    lettersIn (some line) = .ok (.ofInts b.flatten) := by
  rw [lettersIn, Option.elim_some, Bubble.letters_eq_ok_iff.1 spelled]

theorem letters_of_lettersIn {b : Bubble} {line : String} (made : lettersIn (some line) = .ok b)
    (letters : line ≠ "") : b.letters = .ok line := by
  rw [lettersIn, Option.elim_some] at made
  split at made
  · rename_i indices found
    have some : indices ≠ [] := by
      rintro rfl
      have length := length_of_mapM_eq_ok found
      exact letters (by simpa using length.symm)
    rw [Bubble.letters_eq_ok_iff, found, ← Except.ok.inj made, Bubble.flatten_ofInts some]
  · contradiction

theorem faultOf_lettersIn (line : String) :
    faultOf (lettersIn (some line)) =
      (line.toList.find? (· ∉ Alphabet.letters)).map fun c => .alphabet (.unknownCharacter c) := by
  have same : faultOf (lettersIn (some line)) =
      (faultOf (line.toList.mapM Alphabet.indexOf)).map .alphabet := by
    rw [lettersIn, Option.elim_some]
    cases line.toList.mapM Alphabet.indexOf <;> rfl
  rw [same, Alphabet.faultOf_mapM_indexOf, Option.map_map]
  rfl

theorem exists_lettersIn_eq_ok {line : String} (inside : ∀ c ∈ line.toList, c ∈ Alphabet.letters) :
    ∃ b, lettersIn (some line) = .ok b := by
  have unrefused : line.toList.find? (· ∉ Alphabet.letters) = none := by
    simpa [List.find?_eq_none] using inside
  rw [← faultOf_eq_none_iff, faultOf_lettersIn, unrefused, Option.map_none]

theorem numeralIn_of_numeral {n : Int} (inside : Bubble.inRange n = true) {left right : String}
    (before : ∀ c ∈ left.toList, Text.isBlank c = true)
    (behind : ∀ c ∈ right.toList, Text.isBlank c = true) :
    numeralIn (some (left ++ (Bubble.scalar n).text ++ right)) = .ok (.scalar n) := by
  have trimmed : Text.trim (left ++ (Bubble.scalar n).text ++ right).toList = Text.numeral n := by
    rw [String.toList_append, String.toList_append, Bubble.text_scalar, String.toList_ofList]
    apply Text.trim_of_solid before behind (Text.numeral_ne_nil n)
    exact fun c member => Text.isBlank_eq_false_of_isPlain (Text.isPlain_of_mem_numeral member)
  rw [Bubble.inRange, Bool.and_eq_true, decide_eq_true_iff, decide_eq_true_iff] at inside
  rw [numeralIn, Option.elim_some, trimmed]
  split
  · rename_i none
    exact absurd none (Text.numeral_ne_nil n)
  · rw [Text.integer?_numeral _ _ n inside.1 inside.2]

end Effect

def Turn.ofInput {σ : Type} (frame : Frame) (machine : Machine) (after : σ) :
    Except Cause Bubble → Turn σ
  | .ok b =>
    .done (machine.calls.push frame) ⟨⟨machine.cursor + 1, machine.abyss.push b⟩, machine.calls⟩
      after
  | .error cause =>
    .failed ((machine.calls.push frame).failure cause) (machine.enter frame) after

namespace Program

variable {σ : Type} [Host σ] {program : Program} {op : Opcode} {machine : Machine} {host after : σ}
  {line : String}

def Pushes (program : Program) (op : Opcode) (b : Bubble) (machine : Machine) (host after : σ) :
    Prop :=
  program.turn machine host =
    .done (machine.calls.push (.instruction op machine.cursor))
      ⟨⟨machine.cursor + 1, machine.abyss.push b⟩, machine.calls⟩ after

theorem turn_of_line {bubbleIn : Option String → Except Cause Bubble}
    (found : Instruction.at? program.tokens machine.cursor = some (.plain op))
    (inputs : program.perform op 0 (machine.cursor + 1) machine.abyss =
      .input (machine.cursor + 1) machine.abyss bubbleIn)
    (reads : Host.read host = (.line line, after)) :
    program.turn machine host =
      Turn.ofInput (.instruction op machine.cursor) machine after (bubbleIn (some line)) := by
  have one : (Instruction.plain op).length = 1 := rfl
  rw [turn_eq found rfl, one, inputs, Effect.input]
  simp only [Turn.ofEffect, reads]
  cases bubbleIn (some line) with
  | error cause => rfl
  | ok b => simp [Except.map, Turn.ofInput, Machine.enter]

section Letters

variable (found : Instruction.at? program.tokens machine.cursor = some (.plain .red))
  (reads : Host.read host = (.line line, after))

include found reads

theorem turn_red : program.turn machine host =
    Turn.ofInput (.instruction .red machine.cursor) machine after
      (Effect.lettersIn (some line)) :=
  turn_of_line found rfl reads

theorem exists_pushes_letters (some : line ≠ "")
    (inside : ∀ c ∈ line.toList, c ∈ Alphabet.letters) :
    ∃ b : Bubble, b.letters = .ok line ∧ program.Pushes .red b machine host after := by
  obtain ⟨b, made⟩ := Effect.exists_lettersIn_eq_ok inside
  refine ⟨b, Effect.letters_of_lettersIn made some, ?_⟩
  rw [Pushes, turn_red found reads, made]
  rfl

theorem pushes_of_letters {b : Bubble} (spelled : b.letters = .ok line) :
    program.Pushes .red (.ofInts b.flatten) machine host after := by
  rw [Pushes, turn_red found reads, Effect.lettersIn_of_letters spelled]
  rfl

theorem turn_red_eq_failed {c : Char}
    (first : line.toList.find? (· ∉ Alphabet.letters) = some c) :
    program.turn machine host =
      .failed
        ((machine.calls.push (.instruction .red machine.cursor)).failure
          (.alphabet (.unknownCharacter c)))
        (machine.enter (.instruction .red machine.cursor)) after := by
  have refused :
      faultOf (Effect.lettersIn (some line)) = some (.alphabet (.unknownCharacter c)) := by
    rw [Effect.faultOf_lettersIn, first, Option.map_some]
  rw [turn_red found reads, faultOf_eq_some_iff.1 refused]
  rfl

theorem turn_red_fails_iff :
    (∃ failure left last, program.turn machine host = .failed failure left last) ↔
      ∃ c ∈ line.toList, c ∉ Alphabet.letters := by
  constructor
  · rintro ⟨failure, left, last, failed⟩
    by_contra none
    have inside : ∀ c ∈ line.toList, c ∈ Alphabet.letters := by
      intro c member
      by_contra outside
      exact none ⟨c, member, outside⟩
    obtain ⟨b, made⟩ := Effect.exists_lettersIn_eq_ok inside
    rw [turn_red found reads, made] at failed
    contradiction
  · rintro ⟨c, member, outside⟩
    have some : (line.toList.find? (· ∉ Alphabet.letters)).isSome := by
      rw [List.find?_isSome]
      exact ⟨c, member, decide_eq_true outside⟩
    obtain ⟨d, first⟩ := Option.isSome_iff_exists.1 some
    exact ⟨_, _, _, turn_red_eq_failed found reads first⟩

end Letters

theorem perform_pr1_push (program : Program) (next : Nat) (abyss : Abyss) (b : Bubble) :
    program.perform .pr1 0 next (abyss.push b) = .write b.text ⟨next, abyss⟩ := rfl

theorem pushes_numeral {n : Int} {left right : String}
    (found : Instruction.at? program.tokens machine.cursor = some (.plain .r3d))
    (reads : Host.read host = (.line line, after)) (inside : Bubble.inRange n = true)
    (before : ∀ c ∈ left.toList, Text.isBlank c = true)
    (behind : ∀ c ∈ right.toList, Text.isBlank c = true)
    (same : line = left ++ (Bubble.scalar n).text ++ right) :
    program.Pushes .r3d (.scalar n) machine host after := by
  have made : Effect.numeralIn (some line) = .ok (.scalar n) :=
    same ▸ Effect.numeralIn_of_numeral inside before behind
  rw [Pushes, turn_of_line found rfl reads, made]
  rfl

/-- Letters and numerals that were printed are read back, whatever else the host has. Letters come
back as a row of scalars, and a line with any other character is refused for the first one of them;
a numeral comes back from any blanks around it. -/
theorem turn_reads_back (program : Program) (machine : Machine)
    (reads : Host.read host = (.line line, after)) :
    (Instruction.at? program.tokens machine.cursor = some (.plain .red) →
      (line ≠ "" → (∀ c ∈ line.toList, c ∈ Alphabet.letters) →
        ∃ b : Bubble, b.letters = .ok line ∧ program.Pushes .red b machine host after) ∧
      (∀ b : Bubble, b.letters = .ok line → line ≠ "" →
        program.Pushes .red (.ofInts b.flatten) machine host after ∧
          ((∃ n, b = .scalar n) ∨
              (∃ ns : List Int, 2 ≤ ns.length ∧ b = .double (ns.map .scalar)) →
            Bubble.ofInts b.flatten = b)) ∧
      ((∃ failure left last, program.turn machine host = .failed failure left last) ↔
        ∃ c ∈ line.toList, c ∉ Alphabet.letters) ∧
      ∀ c, line.toList.find? (· ∉ Alphabet.letters) = some c →
        program.turn machine host =
          .failed
            ((machine.calls.push (.instruction .red machine.cursor)).failure
              (.alphabet (.unknownCharacter c)))
            (machine.enter (.instruction .red machine.cursor)) after) ∧
    (Instruction.at? program.tokens machine.cursor = some (.plain .r3d) →
      ∀ n, Bubble.inRange n = true → ∃ text,
        (∀ (printer : Program) next (abyss : Abyss),
          printer.perform .pr1 0 next (abyss.push (.scalar n)) = .write text ⟨next, abyss⟩) ∧
        ∀ left right : String, (∀ c ∈ left.toList, Text.isBlank c = true) →
          (∀ c ∈ right.toList, Text.isBlank c = true) → line = left ++ text ++ right →
          program.Pushes .r3d (.scalar n) machine host after) := by
  constructor
  · intro found
    refine ⟨exists_pushes_letters found reads, ?_, turn_red_fails_iff found reads,
      fun c first => turn_red_eq_failed found reads first⟩
    intro b spelled _
    exact ⟨pushes_of_letters found reads spelled, Bubble.ofInts_flatten⟩
  · intro found n inside
    refine ⟨(Bubble.scalar n).text,
      fun printer next abyss => perform_pr1_push printer next abyss (.scalar n), ?_⟩
    intro left right before behind same
    exact pushes_numeral found reads inside before behind same

theorem turn_reads_back_least :
    Pushes ⟨[3, 4], .empty⟩ .red (.double [.scalar 8, .scalar 15]) ⟨⟨0, .empty⟩, ⟨[.run]⟩⟩
      (Buffer.ofLines ["He"]) ⟨["He"], [], []⟩ ∧
    turn ⟨[3, 4], .empty⟩ ⟨⟨0, .empty⟩, ⟨[.run]⟩⟩ (Buffer.ofLines ["Hz q"]) =
      .failed ⟨.alphabet (.unknownCharacter 'z'), [.run, .instruction .red 0]⟩
        ⟨⟨0, .empty⟩, ⟨[.run, .instruction .red 0]⟩⟩ ⟨["Hz q"], [], []⟩ ∧
    Pushes ⟨[3, 4], .empty⟩ .r3d (.scalar (-9223372036854775808)) ⟨⟨1, .empty⟩, ⟨[.run]⟩⟩
      (Buffer.ofLines [" -9223372036854775808\t"]) ⟨[" -9223372036854775808\t"], [], []⟩ := by
  have letters : Host.read (Buffer.ofLines ["He"]) = (.line "He", ⟨["He"], [], []⟩) := rfl
  have strangers : Host.read (Buffer.ofLines ["Hz q"]) = (.line "Hz q", ⟨["Hz q"], [], []⟩) := rfl
  have numeral : Host.read (Buffer.ofLines [" -9223372036854775808\t"]) =
      (.line " -9223372036854775808\t", ⟨[" -9223372036854775808\t"], [], []⟩) := rfl
  obtain ⟨-, back, -⟩ := (turn_reads_back ⟨[3, 4], .empty⟩ ⟨⟨0, .empty⟩, ⟨[.run]⟩⟩ letters).1 rfl
  obtain ⟨-, -, -, first⟩ :=
    (turn_reads_back ⟨[3, 4], .empty⟩ ⟨⟨0, .empty⟩, ⟨[.run]⟩⟩ strangers).1 rfl
  obtain ⟨text, prints, pushes⟩ :=
    (turn_reads_back ⟨[3, 4], .empty⟩ ⟨⟨1, .empty⟩, ⟨[.run]⟩⟩ numeral).2 rfl
      (-9223372036854775808) rfl
  refine ⟨?_, first 'z' (by decide), ?_⟩
  · obtain ⟨pushed, same⟩ := back (.double [.scalar 8, .scalar 15]) rfl (by decide)
    rw [same (.inr ⟨[8, 15], by decide, rfl⟩)] at pushed
    exact pushed
  · have printed := prints ⟨[3, 4], .empty⟩ 0 .empty
    rw [perform_pr1_push] at printed
    obtain ⟨rfl, -⟩ := Effect.write.inj printed
    exact pushes " " "\t" (List.all_eq_true.1 rfl) (List.all_eq_true.1 rfl) (by decide)

end Program

end AwaLang
