import AwaLang.Proofs.Alphabet
import AwaLang.Proofs.Host.Channel
import AwaLang.Proofs.Machine.Alike
import AwaLang.Proofs.Machine.Budget

namespace AwaLang

theorem Bubble.exists_letters_eq_error {b : Bubble} {index : Int} (member : index ∈ b.flatten)
    (outside : index < 0 ∨ 64 ≤ index) : ∃ fault, b.letters = .error fault := by
  cases spelled : b.letters with
  | error fault => exact ⟨fault, rfl⟩
  | ok text =>
    obtain ⟨chars, done, -⟩ := exists_of_map_eq_ok spelled
    obtain ⟨c, own⟩ := exists_of_mapM_eq_ok done member
    have range := Alphabet.range_of_letter own
    omega

variable {σ : Type} [Host σ]

/-- A run comes behind these machines to the last one, whose instruction prints a text too many. So
does the run on the capped host, and there the room is used up. -/
structure Overrun (cap : Nat → σ → σ) (program : Program) (spare : Nat) (machine : Machine)
    (host : σ) (room : Nat) (before : List Machine) (last : Machine) (between : σ) (text : String) :
    Prop where
  trail : ∃ later, program.trail spare machine host = before ++ last :: later
  lasts : before.length ≤ spare
  texts : before.filterMap program.textAt = (program.texts spare machine host).take room
  prints : program.textAt last = some text
  next : (program.texts spare machine host)[room]? = some text
  capped : program.progress before.length machine (cap room host) = some (last, cap 0 between)

namespace Overrun

variable {cap : Nat → σ → σ} {program : Program} {spare room : Nat} {machine : Machine} {host : σ}
  {text : String}

theorem first (prints : program.textAt machine = some text) (spare : Nat) (host : σ) :
    Overrun cap program spare machine host 0 [] machine host text where
  trail := ⟨_, by rw [Program.trail.eq_def]; rfl⟩
  lasts := Nat.zero_le spare
  texts := rfl
  prints := prints
  next := by
    rw [Program.texts, Program.trail.eq_def, List.filterMap_cons_some prints]
    rfl
  capped := rfl

theorem step {calls : CallStack} {next last : Machine} {after between : σ} {before : List Machine}
    (done : program.turn machine host = .done calls next after)
    (also : program.turn machine (cap (room + (program.textAt machine).toList.length) host) =
      .done calls next (cap room after))
    (later : Overrun cap program spare next after room before last between text) :
    Overrun cap program (spare + 1) machine host
      (room + (program.textAt machine).toList.length) (machine :: before) last between text where
  trail := by
    obtain ⟨rest, whole⟩ := later.trail
    rw [Program.trail_of_done done]
    exact ⟨rest, congrArg (machine :: ·) whole⟩
  lasts := Nat.succ_le_succ later.lasts
  texts := by
    rw [Program.texts_of_done done, List.take_append, Nat.add_sub_cancel, ← later.texts,
      List.take_of_length_le (Nat.le_add_left _ room), List.filterMap_cons]
    cases program.textAt machine <;> rfl
  prints := later.prints
  next := by
    rw [Program.texts_of_done done, List.getElem?_append_right (Nat.le_add_left _ room),
      Nat.add_sub_cancel]
    exact later.next
  capped := by
    rw [List.length_cons, Program.progress_succ also]
    exact later.capped

end Overrun

theorem Program.turn_of_outside {program : Program} {machine : Machine} {b : Bubble}
    {rest : List Bubble} {index : Int}
    (found : Instruction.at? program.tokens machine.cursor = some (.plain .prn))
    (top : machine.abyss = ⟨b :: rest⟩) (member : index ∈ b.flatten)
    (outside : index < 0 ∨ 64 ≤ index) (host : σ) :
    program.textAt machine = none ∧ ∃ fault, program.turn machine host =
      .failed ((machine.calls.push (.instruction .prn machine.cursor)).failure (.alphabet fault))
        { machine.enter (.instruction .prn machine.cursor) with abyss := ⟨rest⟩ } host := by
  obtain ⟨fault, refused⟩ := Bubble.exists_letters_eq_error member outside
  constructor
  · rw [textAt_of_performs found rfl, top]
    change b.letters.toOption = none
    rw [refused]
    rfl
  · have letters : Effect.lettersOf b = .error (.alphabet fault) := by
      rw [Effect.lettersOf, refused]
    refine ⟨fault, ?_⟩
    rw [turn_eq found rfl, perform, Effect.print, top, Abyss.pop]
    simp only [letters]
    rfl

/-- Hosts that take every text, and beside each of them, for every number of texts, one that takes
so many more of them and refuses the next with a message. -/
structure Host.Caps (P : σ → Prop) (taken : σ → List String) (cap : Nat → σ → σ)
    (message : String) : Prop extends Host.Records P taken where
  answers : ∀ room host, P host →
    Host.read (cap room host) = ((Host.read host).1, cap room (Host.read host).2)
  accepts : ∀ room host text after, P host → Host.write host text = .ok after →
    Host.write (cap (room + 1) host) text = .ok (cap room after)
  refuses : ∀ host text, P host → Host.write (cap 0 host) text = .error message
  shows : ∀ room host, taken (cap room host) = taken host

namespace Host.Caps

variable {P : σ → Prop} {taken : σ → List String} {cap : Nat → σ → σ} {message : String}
  {room : Nat} {host : σ}

theorem alike (caps : Host.Caps P taken cap message) :
    Host.Alike fun _ room host other => P host ∧ other = cap room host where
  read reads room host other related := by
    obtain ⟨held, rfl⟩ := related
    rw [caps.answers room host held]
    exact ⟨rfl, caps.read host held, rfl⟩
  write reads room host other text related := by
    obtain ⟨held, rfl⟩ := related
    obtain ⟨after, written, -⟩ := caps.writes host text held
    exact ⟨after, cap room after, written, caps.accepts room host text after held written,
      caps.write host text after held written, rfl⟩

theorem turn_of_done (caps : Host.Caps P taken cap message) (held : P host) {program : Program}
    {machine next : Machine} {calls : CallStack} {after : σ}
    (done : program.turn machine host = .done calls next after) :
    program.turn machine (cap (room + (program.textAt machine).toList.length) host) =
      .done calls next (cap room after) ∧ P after := by
  have related : P host ∧ cap (room + (program.textAt machine).toList.length) host =
      cap (room + (program.textAt machine).toList.length) host := ⟨held, rfl⟩
  obtain ⟨second, seen, later⟩ := caps.alike.turn 0 room related
  rw [seen, done] at later
  rw [seen, done, Turn.map]
  obtain ⟨kept, same⟩ := later
  change second = cap room after at same
  rw [same]
  exact ⟨rfl, kept⟩

theorem exists_overrun_of_near (held : P host) {program : Program} {machine : Machine}
    (near : room < (program.textAt machine).toList.length) (spare : Nat) :
    ∃ before last between text,
      Overrun cap program spare machine host room before last between text ∧ P between ∧
      taken between = taken host ++ (program.texts spare machine host).take room := by
  cases prints : program.textAt machine with
  | none =>
    rw [prints] at near
    contradiction
  | some text =>
    rw [prints] at near
    obtain rfl := Nat.lt_one_iff.1 near
    exact ⟨[], machine, host, text, .first prints spare host, held, (List.append_nil _).symm⟩

/-- A run with a text too many comes, on the capped host as well, to the instruction that prints it,
and there the room is used up. -/
theorem exists_overrun (caps : Host.Caps P taken cap message) (held : P host) {program : Program}
    {spare : Nat} {machine : Machine}
    (exceeds : room < (program.texts spare machine host).length) :
    ∃ before last between text,
      Overrun cap program spare machine host room before last between text ∧ P between ∧
      taken between = taken host ++ (program.texts spare machine host).take room := by
  induction spare, machine, host using Program.turns_induction σ program generalizing room with
  | last spare machine host last =>
    rw [Program.texts_of_last last] at exceeds
    exact exists_overrun_of_near held exceeds spare
  | more spare machine host calls next after done ih =>
    -- The text too many is that of this turn, or else one of the turns after it.
    rcases Nat.lt_or_ge room (program.textAt machine).toList.length with near | far
    · exact exists_overrun_of_near held near (spare + 1)
    obtain ⟨left, rfl⟩ := Nat.exists_eq_add_of_le' far
    obtain ⟨also, kept⟩ := caps.turn_of_done held done
    have added := caps.taken_turn held program machine
    rw [done] at added
    change taken after = _ at added
    rw [Program.texts_of_done done, List.length_append, Nat.add_comm,
      Nat.add_lt_add_iff_left] at exceeds
    obtain ⟨before, last, between, text, later, reached, shown⟩ := ih kept exceeds
    have whole := later.step done also
    refine ⟨machine :: before, last, between, text, whole, reached, ?_⟩
    rw [shown, added, List.append_assoc, ← whole.texts, ← later.texts, List.filterMap_cons]
    cases program.textAt machine <;> rfl

theorem halts_of_overrun (caps : Host.Caps P taken cap message) {program : Program} {spare : Nat}
    {machine last : Machine} {before : List Machine} {between : σ} {text : String} {op : Opcode}
    (overrun : Overrun cap program spare machine host room before last between text)
    (kept : P between) (prints : program.Prints last op text) :
    program.Halts machine (cap room host) before.length
      (.failed ((last.calls.push (.instruction op last.cursor)).failure (.io message))
        { last.enter (.instruction op last.cursor) with abyss := ⟨last.abyss.topFirst.tail⟩ })
      (cap 0 between) := by
  refine ⟨last, cap 0 between, overrun.capped, ?_⟩
  rw [Program.turn_of_prints prints]
  simp only [Turn.ofEffect, caps.refuses between text kept]
  rfl

end Host.Caps

structure Job.CutShort (taken : σ → List String) (cap : Nat → σ → σ) (message : String) (job : Job)
    (host : σ) (room : Nat) : Prop where
  recorded : taken (Interpreter.advance job host).2.host = taken host ++ job.texts host
  within : (job.texts host).length ≤ room →
    Interpreter.advance job (cap room host) =
      ((Interpreter.advance job host).1,
        (Interpreter.advance job host).2.map (cap (room - (job.texts host).length)))
  beyond : room < (job.texts host).length → ∃ before last later op text after,
    job.program.trail job.spare job.machine host = before ++ last :: later ∧
    before.filterMap job.program.textAt = (job.texts host).take room ∧
    job.program.Prints last op text ∧ (job.texts host)[room]? = some text ∧
    Interpreter.advance job (cap room host) =
      (.failed ((last.calls.push (.instruction op last.cursor)).failure (.io message)),
        ⟨after, .empty, last.calls.push (.instruction op last.cursor),
          Program.limit - 1 - (job.spare - before.length)⟩) ∧
    taken after = taken host ++ (job.texts host).take room

namespace Host.Caps

variable {P : σ → Prop} {taken : σ → List String} {cap : Nat → σ → σ} {message : String}
  {room : Nat} {host : σ}

theorem cutShort (caps : Host.Caps P taken cap message) (held : P host) (job : Job) (room : Nat) :
    job.CutShort taken cap message host room where
  recorded := caps.taken_advance held job
  within fits := by
    have related : P host ∧
        cap room host = cap (room - (job.texts host).length + (job.texts host).length) host := by
      rw [Nat.sub_add_cancel fits]
      exact ⟨held, rfl⟩
    obtain ⟨-, -, second, runs, -, same⟩ := caps.alike.advance 0 _ related
    rw [runs, same]
    rfl
  beyond exceeds := by
    obtain ⟨before, last, between, text, overrun, kept, shown⟩ := caps.exists_overrun held exceeds
    obtain ⟨later, whole⟩ := overrun.trail
    obtain ⟨op, prints⟩ := Program.textAt_eq_some_iff.1 overrun.prints
    have halts := caps.halts_of_overrun overrun kept prints
    exact ⟨before, last, later, op, text, cap 0 between, whole, overrun.texts, prints, overrun.next,
      Interpreter.advance_of_halts halts overrun.lasts, (caps.shows 0 between).trans shown⟩

end Host.Caps

theorem Channel.caps :
    Host.Caps (fun channel : Channel => channel.room = none) Channel.taken
      (fun room channel => { channel with room := some room }) "sink closed" where
  toKeeps := Channel.keeps_room
  reads channel _ := congrArg List.reverse channel.read_frame.2.2
  writes channel text unbounded := ⟨_, write_of_room unbounded text, List.reverse_cons⟩
  answers room channel _ := by
    obtain ⟨capacity, queue, held, reading, events, own, writes⟩ := channel
    cases reading <;> cases queue <;> cases held <;> rfl
  accepts room channel text after unbounded taken := by
    rw [write_of_room unbounded, Except.ok.injEq] at taken
    rw [← taken]
    rfl
  refuses _ _ _ := rfl
  shows _ _ := rfl

namespace Interpreter

variable {P : σ → Prop} {taken : σ → List String} {cap : Nat → σ → σ} {message : String}

/-- A sink that fails only cuts a run short. If the run on a host that takes all texts makes no more
of them than there is room for, then it comes to the same on the host with that room. Else the run
there fails at the instruction `prn` or `pr1` that prints the next text, what it has recorded are
the texts before that one, and its abyss is empty. This holds of a run that is taken up again after
a wait as well. Each text is the whole text of one `prn` or `pr1`; a `prn` of a bubble with an
integer that is no place in the alphabet writes nothing. -/
theorem run_capped (caps : Host.Caps P taken cap message) {i : Interpreter σ} (held : P i.host)
    (submission : Submission) (room : Nat) :
    taken (i.run submission).2.host = taken i.host ++ i.textsOf submission ∧
    ((i.textsOf submission).length ≤ room →
      (i.map (cap room)).run submission =
        ((i.run submission).1,
          (i.run submission).2.map (cap (room - (i.textsOf submission).length)))) ∧
    (room < (i.textsOf submission).length →
      ∃ job before last later op text,
        i.jobOf submission = some job ∧
        job.program.trail job.spare job.machine i.host = before ++ last :: later ∧
        before.filterMap job.program.textAt = (i.textsOf submission).take room ∧
        job.program.Prints last op text ∧
        (i.textsOf submission)[room]? = some text ∧
        ((i.map (cap room)).run submission).1 =
          .failed ⟨.io message, [.run, .instruction op last.cursor]⟩ ∧
        taken ((i.map (cap room)).run submission).2.host =
          taken i.host ++ (i.textsOf submission).take room ∧
        ((i.map (cap room)).run submission).2.abyss = .empty) ∧
    (∀ (job : Job) (host : σ), P host → job.CutShort taken cap message host room) ∧
    (∀ text ∈ i.textsOf submission, ∃ job machine op,
      i.jobOf submission = some job ∧
      machine ∈ job.program.trail job.spare job.machine i.host ∧
      job.program.Prints machine op text) ∧
    ∀ (program : Program) (machine : Machine) (host : σ) (b : Bubble) rest index,
      Instruction.at? program.tokens machine.cursor = some (.plain .prn) →
      machine.abyss = ⟨b :: rest⟩ → index ∈ b.flatten → index < 0 ∨ 64 ≤ index →
      program.textAt machine = none ∧ ∃ fault, program.turn machine host =
        .failed ((machine.calls.push (.instruction .prn machine.cursor)).failure (.alphabet fault))
          { machine.enter (.instruction .prn machine.cursor) with abyss := ⟨rest⟩ } host := by
  have cutShort (job : Job) (host : σ) (held : P host) := caps.cutShort held job room
  have silent (program : Program) (machine : Machine) (host : σ) (b : Bubble) (rest : List Bubble)
      (index : Int) (found : Instruction.at? program.tokens machine.cursor = some (.plain .prn))
      (top : machine.abyss = ⟨b :: rest⟩) (member : index ∈ b.flatten)
      (outside : index < 0 ∨ 64 ≤ index) :=
    program.turn_of_outside found top member outside host
  rcases i.run_cases submission with
    ⟨job, begins, runs⟩ | ⟨refused, failure, abyss, calls, steps, runs⟩
  · have whole : i.run submission = advance job i.host := runs i.host
    have capped : (i.map (cap room)).run submission = advance job (cap room i.host) := runs _
    have cut := cutShort job i.host held
    rw [whole, capped, textsOf_of_begins begins]
    refine ⟨cut.recorded, cut.within, ?_, cutShort, ?_, silent⟩
    · intro exceeds
      obtain ⟨before, last, later, op, text, after, trail, first, prints, next, failed, shown⟩ :=
        cut.beyond exceeds
      have passed : last ∈ job.program.trail job.spare job.machine i.host := by
        rw [trail]
        exact List.mem_append_right before List.mem_cons_self
      have balanced : last.calls = ⟨[.run]⟩ := calls_of_mem_trail begins passed
      rw [failed, balanced]
      exact ⟨job, before, last, later, op, text, begins, trail, first, prints, next, rfl, shown,
        rfl⟩
    · intro text member
      obtain ⟨machine, passed, writes⟩ := List.mem_filterMap.1 member
      obtain ⟨op, prints⟩ := Program.textAt_eq_some_iff.1 writes
      exact ⟨job, machine, op, begins, passed, prints⟩
  · have whole : i.run submission = (.failed failure, ⟨i.host, abyss, calls, steps⟩) := runs i.host
    have capped : (i.map (cap room)).run submission =
        (.failed failure, ⟨cap room i.host, abyss, calls, steps⟩) := runs _
    rw [whole, capped, textsOf_of_refused refused]
    refine ⟨(List.append_nil _).symm, fun _ => rfl, ?_, cutShort, ?_, silent⟩
    · intro exceeds
      contradiction
    · intro text member
      contradiction

theorem run_capped_at_number :
    (new (Channel.new 1 none)).textsOf (.tokens [5, 0, 1, 5, 7, 2]) = ["A", "7"] ∧
    ((new (Channel.new 1 (some 1))).run (.tokens [5, 0, 1, 5, 7, 2])).1 =
      .failed ⟨.io "sink closed", [.run, .instruction .pr1 5]⟩ ∧
    ((new (Channel.new 1 (some 1))).run (.tokens [5, 0, 1, 5, 7, 2])).2.host.taken = ["A"] ∧
    ((new (Channel.new 1 (some 1))).run (.tokens [5, 0, 1, 5, 7, 2])).2.abyss = .empty ∧
    ((new (Channel.new 1 (some 2))).run (.tokens [5, 0, 1, 5, 7, 2])).1 =
      ((new (Channel.new 1 none)).run (.tokens [5, 0, 1, 5, 7, 2])).1 := by
  have texts : (new (Channel.new 1 none)).textsOf (.tokens [5, 0, 1, 5, 7, 2]) = ["A", "7"] := by
    decide +kernel
  have capped (room : Nat) := run_capped (i := new (Channel.new 1 none)) Channel.caps rfl
    (.tokens [5, 0, 1, 5, 7, 2]) room
  obtain ⟨-, -, short, -⟩ := capped 1
  obtain ⟨-, fits, -⟩ := capped 2
  rw [texts] at short fits
  obtain ⟨job, before, last, later, op, text, -, -, -, -, -, -, shown, empty⟩ := short (by decide)
  have whole := congrArg Prod.fst (fits (Nat.le_refl 2))
  exact ⟨texts, by decide +kernel, shown, empty, whole⟩

end Interpreter

end AwaLang
