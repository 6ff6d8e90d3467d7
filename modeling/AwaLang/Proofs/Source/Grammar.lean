import AwaLang.Proofs.Source.Opening
import AwaLang.Proofs.Source.Tokens

/-!
The grammar of source text. It says without a decoder how a text divides into syllables, how
syllables make up tokens, and where a text goes wrong. Main statement: decoding answers what the
grammar does, for every text, be it with tokens or with a fault and its place.
-/

namespace AwaLang

namespace Syllable

/-- A sign takes its place away, as the first digit of a number does in two's complement. -/
def digit : Syllable → Int
  | one => 1
  | zero => 0
  | sign => -1

def binary : List Syllable → Int
  | [] => 0
  | s :: rest => s.digit * 2 ^ rest.length + binary rest

theorem foldl_extend_eq {syllables : List Syllable} (plain : .sign ∉ syllables) (start : Int) :
    syllables.foldl extend start = start * 2 ^ syllables.length + binary syllables := by
  induction syllables generalizing start with
  | nil => simp [binary]
  | cons s rest ih =>
    rw [List.mem_cons, not_or] at plain
    have place : extend start s = start * 2 + s.digit := by
      cases s with
      | one | zero => simp [extend, digit]
      | sign => exact absurd rfl plain.1
    rw [List.foldl_cons, ih plain.2, place, binary, List.length_cons, Int.pow_succ]
    ring

theorem number_eq_binary {syllables : List Syllable} (front : .sign ∉ syllables.tail) :
    number syllables = binary syllables := by
  cases syllables with
  | nil => rfl
  | cons s rest =>
    rw [List.tail_cons] at front
    have first : extend 0 s = s.digit := by cases s <;> rfl
    rw [number, List.foldl_cons, first, foldl_extend_eq front, binary]

/-- A text divides into syllables and a rest, with four characters or more wherever a syllable
begins. -/
inductive Divides : List Char → List Syllable → List Char → Prop
  | stop (rest : List Char) : Divides rest [] rest
  | syllable {s : Syllable} {text rest : List Char} {syllables : List Syllable}
      (room : 4 ≤ (s.text ++ text).length) (later : Divides text syllables rest) :
      Divides (s.text ++ text) (s :: syllables) rest

theorem Divides.read_eq {text rest : List Char} {syllables : List Syllable}
    (divides : Divides text syllables rest) :
    read text = ⟨syllables ++ (read rest).syllables, (read rest).rest⟩ := by
  induction divides with
  | stop rest => rfl
  | syllable room later ih =>
    rw [read_text_append _ _ room, ih]
    rfl

theorem divides_read (text : List Char) : Divides text (read text).syllables (read text).rest := by
  fun_induction read text with
  | case1 a b c d rest first ih =>
    obtain ⟨rfl, rfl⟩ : a = 'w' ∧ b = 'a' := by simpa [Syllable.text] using first
    exact .syllable (s := one) (by simp [Syllable.text]) ih
  | case2 a b c d rest _ first ih =>
    obtain ⟨rfl, rfl, rfl, rfl⟩ : a = ' ' ∧ b = 'a' ∧ c = 'w' ∧ d = 'a' := by
      simpa [Syllable.text] using first
    exact .syllable (s := zero) (by simp [Syllable.text]) ih
  | case3 a b c d rest _ _ first ih =>
    obtain ⟨rfl, rfl, rfl, rfl⟩ : a = ' ' ∧ b = '~' ∧ c = 'w' ∧ d = 'a' := by
      simpa [Syllable.text] using first
    exact .syllable (s := sign) (by simp [Syllable.text]) ih
  | case4 a b c d rest => exact .stop (a :: b :: c :: d :: rest)
  | case5 rest => exact .stop rest

theorem Divides.split {text rest : List Char} {earlier later : List Syllable}
    (divides : Divides text (earlier ++ later) rest) :
    ∃ middle, Divides text earlier middle ∧ Divides middle later rest := by
  induction earlier generalizing text with
  | nil => exact ⟨text, .stop text, divides⟩
  | cons s earlier ih =>
    cases divides with
    | syllable room more =>
      obtain ⟨middle, first, second⟩ := ih more
      exact ⟨middle, .syllable room first, second⟩

theorem eq_of_prefix_text {s other : Syllable} {text : List Char} (first : s.text <+: text)
    (second : other.text <+: text) : s = other := by
  obtain ⟨rest, rfl⟩ := first
  cases s <;> cases other <;> simp [Syllable.text] at second ⊢

theorem read_eq_of_not_prefix {text : List Char} (strange : ∀ s : Syllable, ¬ s.text <+: text) :
    read text = ⟨[], text⟩ := by
  have whole := spell_read text
  rcases reading : read text with ⟨found, left⟩
  rw [reading] at whole
  cases found with
  | nil => rw [← whole]; rfl
  | cons s found =>
    have begins : s.text <+: text := by
      rw [← whole, spell_cons, List.append_assoc]
      exact List.prefix_append s.text _
    exact absurd begins (strange s)

theorem not_prefix_read_rest {text : List Char} (room : 4 ≤ (read text).rest.length)
    (s : Syllable) : ¬ s.text <+: (read text).rest := by
  rintro ⟨more, split⟩
  have stopped : (read (read text).rest).syllables = [] := by
    have whole := congrArg Reading.syllables (divides_read text).read_eq
    exact List.append_right_eq_self.1 whole.symm
  rw [← split] at stopped room
  rw [read_text_append s more room] at stopped
  contradiction

end Syllable

namespace Source

open Syllable

/-- Syllables make up tokens of the widths of their roles, each the binary number of its syllables.
A sign is the first syllable of its token; the last token may lack syllables, and is not counted. -/
inductive Tokenized : Role → List Syllable → List Token → Prop
  | rest {role : Role} {left : List Syllable} (short : left.length < role.width)
      (front : .sign ∉ left.tail) : Tokenized role left []
  | token {role : Role} {units rest : List Syllable} {tokens : List Token}
      (width : units.length = role.width) (front : .sign ∉ units.tail)
      (later : Tokenized (role.next (binary units)) rest tokens) :
      Tokenized role (units ++ rest) (binary units :: tokens)

def InOrder (role : Role) (syllables : List Syllable) : Prop :=
  ∃ tokens, Tokenized role syllables tokens

theorem inOrder_append_iff {role : Role} {units rest : List Syllable}
    (width : units.length = role.width) (front : .sign ∉ units.tail) :
    InOrder role (units ++ rest) ↔ InOrder (role.next (binary units)) rest := by
  constructor
  · rintro ⟨tokens, tokenized⟩
    generalize whole : units ++ rest = syllables at tokenized
    cases tokenized with
    | rest short =>
      rw [← whole, List.length_append] at short
      omega
    | token first ahead later =>
      obtain ⟨rfl, rfl⟩ := List.append_inj whole (width.trans first.symm)
      exact ⟨_, later⟩
  · rintro ⟨tokens, later⟩
    exact ⟨_, .token width front later⟩

theorem InOrder.append_plain {role : Role} {syllables : List Syllable}
    (ordered : InOrder role syllables) {s : Syllable} (plain : s ≠ .sign) :
    InOrder role (syllables ++ [s]) := by
  obtain ⟨tokens, tokenized⟩ := ordered
  induction tokenized with
  | @rest role left short front =>
    have ahead : .sign ∉ (left ++ [s]).tail := by
      cases left with
      | nil => simp
      | cons first left => simpa [plain.symm] using front
    rcases Nat.lt_or_eq_of_le (Nat.succ_le_of_lt short) with more | full
    · exact ⟨[], .rest (by simpa using more) ahead⟩
    · have width : (left ++ [s]).length = role.width := by simpa using full
      refine ⟨[binary (left ++ [s])], ?_⟩
      have none : Tokenized (role.next (binary (left ++ [s]))) [] [] :=
        .rest (Role.width_pos _) List.not_mem_nil
      have last := Tokenized.token width ahead none
      rwa [List.append_nil] at last
  | @token role units rest tokens width front later ih =>
    rw [List.append_assoc]
    exact (inOrder_append_iff width front).2 ih

theorem inOrder_or_misplaced (role : Role) (syllables : List Syllable) :
    InOrder role syllables ∨
      ∃ earlier later, syllables = earlier ++ .sign :: later ∧ InOrder role earlier ∧
        ¬ InOrder role (earlier ++ [.sign]) := by
  induction syllables using List.reverseRecOn with
  | nil => exact .inl ⟨[], .rest role.width_pos List.not_mem_nil⟩
  | append_singleton syllables s ih =>
    rcases ih with ordered | ⟨earlier, later, rfl, ordered, misplaced⟩
    · by_cases fits : InOrder role (syllables ++ [s])
      · exact .inl fits
      · have sign : s = .sign := by
          by_contra plain
          exact fits (ordered.append_plain plain)
        subst sign
        exact .inr ⟨syllables, [], rfl, ordered, fits⟩
    · exact .inr ⟨earlier, later ++ [s], by simp, ordered, misplaced⟩

theorem gather_of_tokenized {role : Role} {syllables : List Syllable} {tokens : List Token}
    (tokenized : Tokenized role syllables tokens) (position : Nat) :
    ∃ left, gather role 0 0 position syllables = .ok ⟨tokens, left⟩ := by
  induction tokenized generalizing position with
  | rest short front => exact ⟨_, gather_leftover front short position⟩
  | @token role units rest tokens width front later ih =>
    obtain ⟨left, gathered⟩ := ih (position + (spell units).length)
    rw [gather_number width front, number_eq_binary front, gathered]
    exact ⟨left, rfl⟩

theorem gather_of_not_inOrder {role : Role} {syllables : List Syllable}
    (ordered : InOrder role syllables) (misplaced : ¬ InOrder role (syllables ++ [.sign]))
    (position : Nat) (rest : List Syllable) :
    gather role 0 0 position (syllables ++ .sign :: rest) =
      .error (.misplacedSign (position + (spell syllables).length)) := by
  obtain ⟨tokens, tokenized⟩ := ordered
  induction tokenized generalizing position with
  | @rest role left short front =>
    have begun : left ≠ [] := by
      rintro rfl
      have wide : 1 < role.width := by cases role <;> decide
      exact misplaced ⟨[], .rest wide List.not_mem_nil⟩
    exact gather_misplaced front begun short position rest
  | @token role units more tokens width front later ih =>
    rw [List.append_assoc, inOrder_append_iff width front] at misplaced
    rw [List.append_assoc, gather_number width front, number_eq_binary front, ih misplaced,
      spell_append, List.length_append, Nat.add_assoc]
    rfl

/-- A text goes wrong behind its first syllables: all before is in order, and there is room for one
more syllable, but none may stand there. -/
structure Violates (body : List Char) (syllables : List Syllable) (rest : List Char) : Prop where
  divides : Divides body syllables rest
  ordered : InOrder .opcode syllables
  room : 4 ≤ rest.length
  refused : ∀ s : Syllable, s.text <+: rest → ¬ InOrder .opcode (syllables ++ [s])

inductive Answers (text : List Char) : Except Fault (List Token) → Prop
  | missingStart (absent : ¬ startMarker <:+: text) : Answers text (.error .missingStart)
  | tokens {skipped body tail : List Char} {syllables : List Syllable} {tokens : List Token}
      (opens : Opens text skipped body) (divides : Divides body syllables tail)
      (short : tail.length ≤ 3) (tokenized : Tokenized .opcode syllables tokens) :
      Answers text (.ok tokens)
  | misplacedSign {skipped body rest : List Char} {syllables : List Syllable}
      (opens : Opens text skipped body) (violates : Violates body syllables rest)
      (sign : Syllable.sign.text <+: rest) :
      Answers text (.error (.misplacedSign (skipped ++ startMarker ++ spell syllables).length))
  | unexpected {skipped body rest : List Char} {syllables : List Syllable}
      (opens : Opens text skipped body) (violates : Violates body syllables rest)
      (strange : ¬ Syllable.sign.text <+: rest) :
      Answers text
        (.error (.unexpected (skipped ++ startMarker ++ spell syllables).length (rest.take 4)))

theorem violates_read {body : List Char} (ordered : InOrder .opcode (read body).syllables)
    (room : 4 ≤ (read body).rest.length) :
    Violates body (read body).syllables (read body).rest where
  divides := divides_read body
  ordered := ordered
  room := room
  refused := by
    intro s begins
    exact absurd begins (not_prefix_read_rest room s)

theorem violates_sign {body : List Char} {earlier later : List Syllable}
    (reading : (read body).syllables = earlier ++ .sign :: later)
    (ordered : InOrder .opcode earlier) (misplaced : ¬ InOrder .opcode (earlier ++ [.sign])) :
    ∃ rest, Violates body earlier rest ∧ Syllable.sign.text <+: rest := by
  have whole := divides_read body
  rw [reading] at whole
  obtain ⟨middle, front, back⟩ := whole.split
  cases back with
  | @syllable _ text _ _ room more =>
    have begins : Syllable.sign.text <+: Syllable.sign.text ++ text := List.prefix_append _ text
    refine ⟨Syllable.sign.text ++ text, ⟨front, ordered, room, ?_⟩, begins⟩
    intro s other
    rw [eq_of_prefix_text other begins]
    exact misplaced

theorem decodeBody_of_tokenized {body tail : List Char} {syllables : List Syllable}
    {tokens : List Token} (divides : Divides body syllables tail) (short : tail.length ≤ 3)
    (tokenized : Tokenized .opcode syllables tokens) (position : Nat) :
    (decodeBody position body).map Decoded.tokens = .ok tokens := by
  have reading : read body = ⟨syllables, tail⟩ := by
    rw [divides.read_eq, read_short (Nat.lt_succ_of_le short), List.append_nil]
  have few : tail.length < 4 := Nat.lt_succ_of_le short
  obtain ⟨left, gathered⟩ := gather_of_tokenized tokenized position
  simp only [decodeBody, reading, gathered, bind, Except.bind, few, if_true, pure, Except.pure,
    Except.map]

theorem decodeBody_of_misplaced {body rest : List Char} {syllables : List Syllable}
    (violates : Violates body syllables rest) (sign : Syllable.sign.text <+: rest)
    (position : Nat) :
    decodeBody position body = .error (.misplacedSign (position + (spell syllables).length)) := by
  obtain ⟨more, rfl⟩ := sign
  have reading := violates.divides.read_eq
  rw [read_text_append .sign more violates.room] at reading
  have misplaced := violates.refused .sign (List.prefix_append _ more)
  have gathered := gather_of_not_inOrder violates.ordered misplaced position (read more).syllables
  have syllables_eq : (read body).syllables = syllables ++ .sign :: (read more).syllables := by
    rw [reading]
    rfl
  rw [decodeBody, syllables_eq, gathered]
  rfl

theorem Violates.read_rest {body rest : List Char} {syllables : List Syllable}
    (violates : Violates body syllables rest) (strange : ¬ Syllable.sign.text <+: rest) :
    read rest = ⟨[], rest⟩ := by
  apply read_eq_of_not_prefix
  intro s begins
  have plain : s ≠ .sign := by
    rintro rfl
    exact strange begins
  exact violates.refused s begins (violates.ordered.append_plain plain)

theorem decodeBody_of_unexpected {body rest : List Char} {syllables : List Syllable}
    (violates : Violates body syllables rest) (strange : ¬ Syllable.sign.text <+: rest)
    (position : Nat) :
    decodeBody position body =
      .error (.unexpected (position + (spell syllables).length) (rest.take 4)) := by
  have stuck := violates.read_rest strange
  have reading : read body = ⟨syllables, rest⟩ := by
    rw [violates.divides.read_eq, stuck, List.append_nil]
  obtain ⟨tokens, tokenized⟩ := violates.ordered
  obtain ⟨left, gathered⟩ := gather_of_tokenized tokenized position
  have many : ¬ rest.length < 4 := Nat.not_lt.2 violates.room
  simp only [decodeBody, reading, gathered, bind, Except.bind, many, if_false]

/-- Behind a start marker the grammar has an answer, and it is the decoder's. -/
theorem answers_decodeBody {text skipped body : List Char} (opens : Opens text skipped body) :
    Answers text
      ((decodeBody (skipped ++ startMarker).length body).map Decoded.tokens) := by
  rcases inOrder_or_misplaced .opcode (read body).syllables with
    ⟨tokens, tokenized⟩ | ⟨earlier, later, reading, ordered, misplaced⟩
  · rcases Nat.lt_or_ge (read body).rest.length 4 with short | room
    · have few : (read body).rest.length ≤ 3 := Nat.le_of_lt_succ short
      rw [decodeBody_of_tokenized (divides_read body) few tokenized]
      exact .tokens opens (divides_read body) few tokenized
    · have violates := violates_read ⟨tokens, tokenized⟩ room
      have strange := not_prefix_read_rest room .sign
      rw [decodeBody_of_unexpected violates strange, ← List.length_append]
      exact .unexpected opens violates strange
  · obtain ⟨rest, violates, sign⟩ := violates_sign reading ordered misplaced
    rw [decodeBody_of_misplaced violates sign, ← List.length_append]
    exact .misplacedSign opens violates sign

/-- Decoding answers what the grammar answers to the cleaned text: that it lacks a start marker, the
tokens that it is made of, or the first place where it goes wrong. -/
theorem decode_eq_iff_answers (source : String) (answer : Except Fault (List Token)) :
    decode source = answer ↔ Answers (clean source.toList) answer := by
  rw [decode, decodeAll, decodeCleaned]
  constructor
  · rintro rfl
    cases found : afterMarker 0 (clean source.toList) with
    | none => exact .missingStart (afterMarker_eq_none_iff.1 found)
    | some opened =>
      obtain ⟨place, body⟩ := opened
      obtain ⟨skipped, opens, -⟩ := opens_of_afterMarker found
      rw [opens.afterMarker_eq, Option.some.injEq, Prod.mk.injEq] at found
      rw [← found.1]
      exact answers_decodeBody opens
  · intro answers
    cases answers with
    | missingStart absent => rw [afterMarker_eq_none_iff.2 absent]; rfl
    | tokens opens divides short tokenized =>
      rw [opens.afterMarker_eq]
      exact decodeBody_of_tokenized divides short tokenized _
    | misplacedSign opens violates sign =>
      rw [opens.afterMarker_eq]
      simp only [decodeBody_of_misplaced violates sign, Except.map, List.length_append]
    | unexpected opens violates strange =>
      rw [opens.afterMarker_eq]
      simp only [decodeBody_of_unexpected violates strange, Except.map, List.length_append]

end Source

end AwaLang
