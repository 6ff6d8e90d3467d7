import AwaLang.Proofs.Interpreter.Isolation
import AwaLang.Proofs.Machine.Alike

namespace AwaLang.Buffer

variable {buffer after other : Buffer} {answers : List Reading} {waits : Bool}

theorem read_answer (buffer : Buffer) :
    (Host.read buffer).1 = buffer.unread.head?.elim .endOfInput .line := by
  obtain ⟨lines, _ | ⟨line, rest⟩, writes⟩ := buffer <;> rfl

theorem unread_read (buffer : Buffer) : (Host.read buffer).2.unread = buffer.unread.tail := by
  obtain ⟨lines, _ | ⟨line, rest⟩, writes⟩ := buffer <;> rfl

theorem records : Host.Records (fun _ : Buffer => True) fun buffer => buffer.writes.reverse where
  read _ _ := trivial
  write _ _ _ _ _ := trivial
  reads buffer _ := by
    obtain ⟨lines, _ | ⟨line, rest⟩, writes⟩ := buffer <;> rfl
  writes buffer text _ := ⟨buffer.write text, rfl, List.reverse_cons⟩

theorem keeps_lines (lines : List String) :
    Host.Keeps fun buffer : Buffer => buffer.lines = lines where
  read buffer held := by
    obtain ⟨own, _ | ⟨line, rest⟩, writes⟩ := buffer <;> exact held
  write buffer text after held taken := by
    rw [← Except.ok.inj taken]
    exact held

theorem unread_of_serves (serves : Host.Serves buffer answers waits after) :
    after.unread = buffer.unread.drop answers.length := by
  induction serves with
  | done buffer => rfl
  | @waits buffer after late => exact absurd (congrArg Prod.fst late) buffer.read_ne_notYet
  | @read buffer last answers waits answered rest ih =>
    rw [ih, unread_read, List.drop_tail, List.length_cons]
  | @write buffer after last text answers waits taken rest ih =>
    rw [ih, ← Except.ok.inj taken]
    rfl

theorem alike : Host.Alike fun reads _ (buffer other : Buffer) =>
    buffer.unread.take reads = other.unread.take reads where
  read reads texts buffer other same := by
    rw [read_answer, read_answer, unread_read, unread_read]
    cases here : buffer.unread with
    | nil =>
      rw [here, List.take_nil, eq_comm, List.take_eq_nil_iff] at same
      have there := same.resolve_left (Nat.succ_ne_zero reads)
      rw [there]
      exact ⟨rfl, rfl⟩
    | cons line rest =>
      rw [here, List.take_succ_cons] at same
      cases there : other.unread with
      | nil =>
        rw [there, List.take_nil] at same
        contradiction
      | cons second others =>
        rw [there, List.take_succ_cons, List.cons.injEq] at same
        rw [same.1]
        exact ⟨rfl, same.2⟩
  write reads texts buffer other text same :=
    ⟨buffer.write text, other.write text, rfl, rfl, same⟩

open Interpreter

theorem host_advance (job : Job) (buffer : Buffer) :
    (advance job buffer).2.host =
      ⟨buffer.lines, buffer.unread.drop (job.reads buffer),
        (job.texts buffer).reverse ++ buffer.writes⟩ := by
  have lines := (keeps_lines buffer.lines).advance rfl job
  have unread := unread_of_serves (serves_advance job buffer)
  have reads := length_answers job buffer
  rw [advance_waits_buffer, Bool.toNat_false, Nat.add_zero] at reads
  rw [reads] at unread
  have taken : (advance job buffer).2.host.writes.reverse =
      buffer.writes.reverse ++ job.texts buffer := records.taken_advance trivial job
  have writes := congrArg List.reverse taken
  rw [List.reverse_reverse, List.reverse_append, List.reverse_reverse] at writes
  rw [← lines, ← unread, ← writes]

theorem host_run (i : Interpreter Buffer) (submission : Submission) :
    (i.run submission).2.host =
      ⟨i.host.lines, i.host.unread.drop (i.readsOf submission),
        (i.textsOf submission).reverse ++ i.host.writes⟩ := by
  rcases i.run_cases submission with
    ⟨job, begins, runs⟩ | ⟨refused, failure, abyss, calls, steps, runs⟩
  · have own : i.run submission = advance job i.host := runs i.host
    rw [readsOf_of_begins begins, textsOf_of_begins begins, own]
    exact host_advance job i.host
  · have own : i.run submission = (.failed failure, ⟨i.host, abyss, calls, steps⟩) := runs i.host
    rw [readsOf_of_refused refused, textsOf_of_refused refused, own]
    rfl

/-- The lines that a run does not read have no influence on it. If the lines of two buffers agree as
far as the run on the first one reads, then the run on the second comes to the same report with the
same texts, reads and steps. A run consumes one line for each of its reads, as long as there are
lines, so the next read gives the line behind those, or finds the end. -/
theorem run_unread (i : Interpreter Buffer) (submission : Submission) :
    (∀ (other : Buffer) count, i.host.unread.take count = other.unread.take count →
      i.readsOf submission ≤ count →
      { i with host := other }.run submission =
          ((i.run submission).1,
            (i.run submission).2.map fun _ =>
              ⟨other.lines, other.unread.drop (i.readsOf submission),
                (i.textsOf submission).reverse ++ other.writes⟩) ∧
        { i with host := other }.readsOf submission = i.readsOf submission ∧
        { i with host := other }.textsOf submission = i.textsOf submission) ∧
    (i.run submission).2.host =
      ⟨i.host.lines, i.host.unread.drop (i.readsOf submission),
        (i.textsOf submission).reverse ++ i.host.writes⟩ ∧
    i.host.unread.length - (i.run submission).2.host.unread.length =
      min (i.readsOf submission) i.host.unread.length ∧
    (Host.read (i.run submission).2.host).1 =
      (i.host.unread[i.readsOf submission]?).elim .endOfInput .line := by
  have left := host_run i submission
  refine ⟨?_, left, ?_, ?_⟩
  · intro other count agree within
    have related : i.host.unread.take (0 + i.readsOf submission) =
        other.unread.take (0 + i.readsOf submission) := by
      have shorter := congrArg (List.take (i.readsOf submission)) agree
      rw [List.take_take, List.take_take, Nat.min_eq_left within] at shorter
      rw [Nat.zero_add]
      exact shorter
    obtain ⟨reads, texts, second, runs, -⟩ := alike.run 0 0 related
    have there := host_run { i with host := other } submission
    rw [reads, texts, runs] at there
    refine ⟨?_, reads, texts⟩
    rw [runs, ← there]
    rfl
  · rw [left, List.length_drop]
    omega
  · rw [left, read_answer, List.head?_drop]

theorem run_unread_second_refused :
    (new (ofLines ["7", "x", "8"])).readsOf (.tokens [4, 2, 4, 2]) = 2 ∧
    ((new (ofLines ["7", "x"])).run (.tokens [4, 2, 4, 2])).1 =
      ((new (ofLines ["7", "x", "8"])).run (.tokens [4, 2, 4, 2])).1 ∧
    ((new (ofLines ["7", "x", "8"])).run (.tokens [4, 2, 4, 2])).1 =
      .failed ⟨.notNumeric ['x'], [.run, .instruction .r3d 2]⟩ ∧
    ((new (ofLines ["7", "x"])).run (.tokens [4, 2, 4, 2])).2.host = ⟨["7", "x"], [], ["7"]⟩ ∧
    (Host.read ((new (ofLines ["7", "x", "8"])).run (.tokens [4, 2, 4, 2])).2.host).1 =
      .line "8" := by
  have reads : (new (ofLines ["7", "x", "8"])).readsOf (.tokens [4, 2, 4, 2]) = 2 := by
    decide +kernel
  have texts : (new (ofLines ["7", "x", "8"])).textsOf (.tokens [4, 2, 4, 2]) = ["7"] := by
    decide +kernel
  obtain ⟨same, -, -, next⟩ := run_unread (new (ofLines ["7", "x", "8"])) (.tokens [4, 2, 4, 2])
  obtain ⟨runs, -, -⟩ := same (ofLines ["7", "x"]) 2 rfl (Nat.le_of_eq reads)
  have second : (new (ofLines ["7", "x"])).run (.tokens [4, 2, 4, 2]) = _ := runs
  rw [reads] at next
  rw [reads, texts] at second
  refine ⟨reads, by rw [second], by decide +kernel, ?_, next⟩
  rw [second]
  rfl

end AwaLang.Buffer
