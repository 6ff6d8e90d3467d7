import AwaLang.Proofs.Source.Cleaning
import AwaLang.Proofs.Source.Grammar

/-!
Texts that go on. What is read of a text is read of every longer text as well: syllables and tokens
stay as they were, and so does a fault that was found. Only the last three characters are looked at
again.
-/

namespace AwaLang

namespace Syllable

theorem Divides.append {text rest : List Char} {syllables : List Syllable}
    (divides : Divides text syllables rest) (more : List Char) :
    Divides (text ++ more) syllables (rest ++ more) := by
  induction divides with
  | stop rest => exact .stop (rest ++ more)
  | syllable room later ih =>
    rw [List.append_assoc]
    refine .syllable ?_ ih
    rw [← List.append_assoc, List.length_append]
    exact Nat.le_add_right_of_le room

theorem read_append (text more : List Char) :
    read (text ++ more) =
      ⟨(read text).syllables ++ (read ((read text).rest ++ more)).syllables,
        (read ((read text).rest ++ more)).rest⟩ :=
  ((divides_read text).append more).read_eq

theorem read_append_of_stopped {text : List Char} (room : 4 ≤ (read text).rest.length)
    (more : List Char) :
    read (text ++ more) = ⟨(read text).syllables, (read text).rest ++ more⟩ := by
  have strange (s : Syllable) : ¬ s.text <+: (read text).rest ++ more := by
    intro begins
    have short : s.text.length ≤ (read text).rest.length := by
      have four : s.text.length ≤ 4 := by cases s <;> decide
      exact Nat.le_trans four room
    have own := List.prefix_of_prefix_length_le begins (List.prefix_append _ more) short
    exact not_prefix_read_rest room s own
  rw [read_append, read_eq_of_not_prefix strange, List.append_nil]

end Syllable

namespace Source

open Syllable

def Decoded.prepend (tokens : List Token) (decoded : Decoded) : Decoded :=
  ⟨tokens ++ decoded.tokens, decoded.leftover⟩

/-- Gathering fails for good, or it can be broken off and taken up again. -/
theorem gather_resumes (role : Role) (bits : Nat) (value : Int) (position : Nat)
    (first : List Syllable) :
    (∃ fault, gather role bits value position first = .error fault ∧
      ∀ second, gather role bits value position (first ++ second) = .error fault) ∨
    ∃ decoded later start, gather role bits value position first = .ok decoded ∧
      ∀ second, gather role bits value position (first ++ second) =
        (gather later decoded.leftover start (position + (spell first).length) second).map
          (.prepend decoded.tokens) := by
  fun_induction gather role bits value position first with
  | case1 role bits value position =>
    refine .inr ⟨⟨[], bits⟩, role, value, rfl, fun second => ?_⟩
    change gather role bits value position second =
      (gather role bits value position second).map (.prepend [])
    cases gather role bits value position second <;> rfl
  | case2 role bits value position s rest misplaced =>
    refine .inl ⟨.misplacedSign position, rfl, fun second => ?_⟩
    rw [List.cons_append, gather, if_pos misplaced]
  | case3 role bits value position s rest fine further behind short ih =>
    have step (tail : List Syllable) : gather role bits value position (s :: tail) =
        gather role (bits + 1) further behind tail := by
      rw [gather, if_neg fine]
      exact if_pos short
    rcases ih with ⟨fault, failed, always⟩ | ⟨decoded, later, start, gathered, goes⟩
    · exact .inl ⟨fault, failed, fun second => (step (rest ++ second)).trans (always second)⟩
    · refine .inr ⟨decoded, later, start, gathered, fun second => ?_⟩
      rw [List.cons_append, step, goes, spell_cons, List.length_append, ← Nat.add_assoc]
  | case4 role bits value position s rest fine further behind full ih =>
    -- The token is complete, so it stands in front of whatever is found behind it.
    have step (tail : List Syllable) : gather role bits value position (s :: tail) =
        (gather (role.next further) 0 0 behind tail).map (.cons further) := by
      rw [gather, if_neg fine]
      exact if_neg full
    rcases ih with ⟨fault, failed, always⟩ | ⟨decoded, later, start, gathered, goes⟩
    · refine .inl ⟨fault, ?_, fun second => ?_⟩
      · rw [failed]
        rfl
      · rw [List.cons_append, step, always]
        rfl
    · refine .inr ⟨.cons further decoded, later, start, ?_, fun second => ?_⟩
      · rw [gathered]
        rfl
      · rw [List.cons_append, step, goes, spell_cons, List.length_append, ← Nat.add_assoc]
        change _ = (gather later decoded.leftover start _ second).map _
        cases gather later decoded.leftover start (behind + (spell rest).length) second <;> rfl

def Fault.StandsAt (fault : Fault) (place : Nat) : Prop :=
  fault = .misplacedSign place ∨ ∃ found, fault = .unexpected place found

theorem standsAt_of_gather {role : Role} {bits : Nat} {value : Int} {position : Nat}
    {syllables : List Syllable} {fault : Fault}
    (failed : gather role bits value position syllables = .error fault) :
    ∃ place, fault.StandsAt place ∧ position ≤ place := by
  fun_induction gather role bits value position syllables with
  | case1 => contradiction
  | case2 role bits value position s rest misplaced =>
    exact ⟨position, .inl (Except.error.inj failed).symm, Nat.le_refl position⟩
  | case3 role bits value position s rest fine further behind short ih =>
    obtain ⟨place, stands, late⟩ := ih failed
    exact ⟨place, stands, Nat.le_trans (Nat.le_add_right position _) late⟩
  | case4 role bits value position s rest fine further behind full ih =>
    cases gathered : gather (role.next further) 0 0 behind rest with
    | ok decoded =>
      rw [gathered] at failed
      contradiction
    | error own =>
      rw [gathered] at failed
      obtain ⟨place, stands, late⟩ := ih (gathered.trans failed)
      exact ⟨place, stands, Nat.le_trans (Nat.le_add_right position _) late⟩

theorem decodeBody_of_gather {position : Nat} {body : List Char} {decoded : Decoded}
    (gathered : gather .opcode 0 0 position (read body).syllables = .ok decoded) :
    decodeBody position body =
      if (read body).rest.length < 4 then .ok decoded
      else .error (.unexpected (position + (spell (read body).syllables).length)
        ((read body).rest.take 4)) := by
  rw [decodeBody, gathered]
  rfl

theorem decodeBody_of_misfit {position : Nat} {body : List Char} {fault : Fault}
    (failed : gather .opcode 0 0 position (read body).syllables = .error fault) :
    decodeBody position body = .error fault := by
  rw [decodeBody, failed]
  rfl

variable {position : Nat} {body : List Char}

theorem decodeBody_append_of_error {fault : Fault}
    (failed : decodeBody position body = .error fault) (more : List Char) :
    decodeBody position (body ++ more) = .error fault := by
  rcases gather_resumes .opcode 0 0 position (read body).syllables with
    ⟨own, misfit, always⟩ | ⟨decoded, later, start, gathered, -⟩
  · rw [decodeBody_of_misfit misfit] at failed
    rw [← failed]
    apply decodeBody_of_misfit
    rw [read_append]
    exact always _
  · rw [decodeBody_of_gather gathered] at failed
    split at failed
    · contradiction
    · rename_i room
      have stopped := read_append_of_stopped (Nat.not_lt.1 room) more
      have four : 4 ≤ (read body).rest.length := Nat.not_lt.1 room
      have far : ¬ ((read body).rest ++ more).length < 4 := by
        rw [List.length_append]
        omega
      have same : gather .opcode 0 0 position (read (body ++ more)).syllables = .ok decoded := by
        rw [stopped]
        exact gathered
      rw [decodeBody_of_gather same, stopped, if_neg far, List.take_append_of_le_length four]
      exact failed

theorem decodeBody_append_of_ok {decoded : Decoded} (ok : decodeBody position body = .ok decoded)
    (more : List Char) :
    (∃ later, decodeBody position (body ++ more) = .ok (.prepend decoded.tokens later)) ∨
    ∃ fault place, decodeBody position (body ++ more) = .error fault ∧ fault.StandsAt place ∧
      position + body.length ≤ place + 3 := by
  rcases gather_resumes .opcode 0 0 position (read body).syllables with
    ⟨own, misfit, -⟩ | ⟨found, later, start, gathered, goes⟩
  · rw [decodeBody_of_misfit misfit] at ok
    contradiction
  · rw [decodeBody_of_gather gathered] at ok
    split at ok
    · rename_i short
      rw [Except.ok.injEq] at ok
      subst ok
      have length : body.length =
          (spell (read body).syllables).length + (read body).rest.length := by
        rw [← List.length_append, spell_read]
      -- Reading is taken up with the characters that were left, three at most.
      have syllables : (read (body ++ more)).syllables =
          (read body).syllables ++ (read ((read body).rest ++ more)).syllables :=
        congrArg Reading.syllables (read_append body more)
      have whole := goes (read ((read body).rest ++ more)).syllables
      rw [← syllables] at whole
      cases further : gather later found.leftover start
          (position + (spell (read body).syllables).length)
          (read ((read body).rest ++ more)).syllables with
      | error fault =>
        rw [further] at whole
        obtain ⟨place, stands, late⟩ := standsAt_of_gather further
        exact .inr ⟨fault, place, decodeBody_of_misfit whole, stands, by omega⟩
      | ok inner =>
        rw [further] at whole
        rw [decodeBody_of_gather whole]
        split
        · exact .inl ⟨inner, rfl⟩
        · refine .inr ⟨_, _, rfl, .inr ⟨_, rfl⟩, ?_⟩
          rw [syllables, spell_append, List.length_append]
          omega
    · contradiction

theorem Opens.append {text skipped : List Char} (opens : Opens text skipped body)
    (more : List Char) : Opens (text ++ more) skipped (body ++ more) where
  split := by rw [opens.split, List.append_assoc, List.append_assoc]
  first := by
    intro earlier later split
    by_contra sooner
    have inside : (earlier ++ startMarker).length ≤ text.length := by
      rw [opens.split, List.length_append, List.length_append, List.length_append]
      omega
    have begins : earlier ++ startMarker <+: text ++ more := by
      rw [split, ← List.append_assoc]
      exact List.prefix_append _ later
    obtain ⟨own, cut⟩ :=
      List.prefix_of_prefix_length_le begins (List.prefix_append text more) inside
    rw [List.append_assoc] at cut
    exact sooner (opens.first earlier own cut.symm)

theorem decode_of_opens {source : String} {skipped : List Char}
    (opens : Opens (clean source.toList) skipped body) :
    decode source = (decodeBody (skipped ++ startMarker).length body).map Decoded.tokens := by
  rw [decode, decodeAll, decodeCleaned, opens.afterMarker_eq]

theorem missingStart_or_opens (source : String) :
    decode source = .error .missingStart ∨
      ∃ skipped body, Opens (clean source.toList) skipped body := by
  cases found : afterMarker 0 (clean source.toList) with
  | none =>
    left
    rw [decode, decodeAll, decodeCleaned, found]
    rfl
  | some opened =>
    obtain ⟨skipped, opens, -⟩ := opens_of_afterMarker found
    exact .inr ⟨skipped, opened.2, opens⟩

/-- What was decided of a text is decided of every text that begins with it. The tokens that were
completed are the first ones, whatever is appended, unless there is a fault in the unread end of the
text or behind it; and a fault that stands in the text remains what is answered. -/
theorem decode_append (source more : String) :
    (∀ tokens, decode source = .ok tokens →
      (∃ later, decode (source ++ more) = .ok (tokens ++ later)) ∨
      ∃ fault place, decode (source ++ more) = .error fault ∧ fault.StandsAt place ∧
        (clean source.toList).length ≤ place + 3) ∧
    ∀ fault place, fault.StandsAt place → decode source = .error fault →
      decode (source ++ more) = .error fault := by
  obtain ⟨behind, whole⟩ := clean_prefix source.toList more.toList
  rw [← String.toList_append] at whole
  rcases missingStart_or_opens source with missing | ⟨skipped, body, opens⟩
  · rw [missing]
    refine ⟨nofun, ?_⟩
    rintro fault place stands same
    rw [← Except.error.inj same] at stands
    rcases stands with wrong | ⟨found, wrong⟩ <;> contradiction
  · have longer := opens.append behind
    rw [whole] at longer
    rw [decode_of_opens opens, decode_of_opens longer]
    constructor
    · intro tokens ok
      obtain ⟨front, own, rfl⟩ := exists_of_map_eq_ok ok
      rcases decodeBody_append_of_ok own behind with ⟨later, goes⟩ |
        ⟨fault, place, failed, stands, late⟩
      · rw [goes]
        exact .inl ⟨later.tokens, rfl⟩
      · rw [failed]
        refine .inr ⟨fault, place, rfl, stands, ?_⟩
        rw [opens.split, ← List.append_assoc, List.length_append]
        exact late
    · intro fault place stands failed
      have own : decodeBody (skipped ++ startMarker).length body = .error fault := by
        rw [← faultOf_eq_some_iff, ← faultOf_map Decoded.tokens, failed]
        rfl
      rw [decodeBody_append_of_error own behind]
      rfl

theorem decode_append_unread_syllable :
    decode "awa awa awawa awawa awa awa awa awa awa awa awawa " = .ok [5] ∧
    (∃ later, decode ("awa awa awawa awawa awa awa awa awa awa awa awawa " ++ "\n AWA") =
      .ok ([5] ++ later)) ∧
    decode "awa wa wa" = .error (.unexpected 3 [' ', 'w', 'a', ' ']) ∧
    decode ("awa wa wa" ++ "wa") = .error (.unexpected 3 [' ', 'w', 'a', ' ']) := by
  have decoded : decode "awa awa awawa awawa awa awa awa awa awa awa awawa " = .ok [5] := by rfl
  have longer : decode ("awa awa awawa awawa awa awa awa awa awa awa awawa " ++ "\n AWA") =
      .ok [5, 1] := by
    rfl
  have wrong : decode "awa wa wa" = .error (.unexpected 3 [' ', 'w', 'a', ' ']) := by rfl
  refine ⟨decoded, ?_, wrong, (decode_append "awa wa wa" "wa").2 _ 3 (.inr ⟨_, rfl⟩) wrong⟩
  rcases (decode_append _ "\n AWA").1 [5] decoded with goes | ⟨fault, place, failed, -⟩
  · exact goes
  · rw [longer] at failed
    cases failed

end Source

end AwaLang
