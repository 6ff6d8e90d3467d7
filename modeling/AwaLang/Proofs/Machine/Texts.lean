import AwaLang.Proofs.Machine.Answers
import AwaLang.Proofs.Machine.Turns

namespace AwaLang

def Opcode.text? (op : Opcode) (abyss : Abyss) : Option String :=
  match op, abyss.topFirst with
  | prn, b :: _ => b.letters.toOption
  | pr1, b :: _ => some b.text
  | _, _ => none

theorem Opcode.text?_eq_some_iff {op : Opcode} {abyss : Abyss} {text : String} :
    op.text? abyss = some text ↔ ∃ b rest, abyss = ⟨b :: rest⟩ ∧
      (op = .prn ∧ b.letters = .ok text ∨ op = .pr1 ∧ b.text = text) := by
  constructor
  · intro prints
    obtain ⟨_ | ⟨b, rest⟩⟩ := abyss
    · cases op <;> contradiction
    · cases op with
      | prn =>
        refine ⟨b, rest, rfl, .inl ⟨rfl, ?_⟩⟩
        change b.letters.toOption = some text at prints
        cases spelled : b.letters with
        | error fault =>
          rw [spelled] at prints
          contradiction
        | ok own =>
          rw [spelled] at prints
          exact congrArg Except.ok (Option.some.inj prints)
      | pr1 => exact ⟨b, rest, rfl, .inr ⟨rfl, Option.some.inj prints⟩⟩
      | _ => contradiction
  · rintro ⟨b, rest, rfl, ⟨rfl, spelled⟩ | ⟨rfl, rfl⟩⟩
    · change b.letters.toOption = some text
      rw [spelled]
      rfl
    · rfl

namespace Effect

def text? : Effect → Option String
  | write text _ => some text
  | _ => none

variable {op : Opcode} {next : Nat} {abyss : Abyss}

theorem text?_rearrange (result : Except Underflow Abyss) :
    (rearrange op next abyss result).text? = none := by
  cases result <;> rfl

theorem text?_calculate : (calculate op next abyss).text? = none := by
  unfold calculate
  split
  · rfl
  · split
    · rfl
    · split <;> rfl

theorem text?_branch (labels : Labels) (label : Token) :
    (branch labels op label next abyss).text? = none := by
  unfold branch
  split <;> rfl

theorem text?_print (textOf : Bubble → Except Cause String) :
    (print op next abyss textOf).text? =
      abyss.topFirst.head?.bind fun b => (textOf b).toOption := by
  obtain ⟨_ | ⟨b, rest⟩⟩ := abyss
  · rfl
  · rw [print, Abyss.pop]
    dsimp only [List.head?_cons, Option.bind_some]
    cases textOf b <;> rfl

end Effect

namespace Program

theorem text?_perform (program : Program) (op : Opcode) (parameter : Token) (next : Nat)
    (abyss : Abyss) : (program.perform op parameter next abyss).text? = op.text? abyss := by
  cases op with
  | nop | lbl | blo | trm | red | r3d => rfl
  | prn =>
    rw [perform, Effect.text?_print]
    obtain ⟨_ | ⟨b, rest⟩⟩ := abyss
    · rfl
    · dsimp only [List.head?_cons, Option.bind_some, Opcode.text?]
      rw [Effect.lettersOf]
      cases b.letters <;> rfl
  | pr1 =>
    rw [perform, Effect.text?_print]
    obtain ⟨_ | ⟨b, rest⟩⟩ := abyss <;> rfl
  | sbm | pop | dpl | srn | mrg | cnt => exact Effect.text?_rearrange _
  | add | sub | mul | div => exact Effect.text?_calculate
  | jmp | eql | lss | gr8 | eqz =>
    rw [perform]
    exact Effect.text?_branch _ _

def textAt (program : Program) (machine : Machine) : Option String :=
  ((Instruction.at? program.tokens machine.cursor).bind Instruction.operation?).bind
    (·.1.text? machine.abyss)

def Prints (program : Program) (machine : Machine) (op : Opcode) (text : String) : Prop :=
  Instruction.at? program.tokens machine.cursor = some (.plain op) ∧
    ∃ b rest, machine.abyss = ⟨b :: rest⟩ ∧
      (op = .prn ∧ b.letters = .ok text ∨ op = .pr1 ∧ b.text = text)

variable {program : Program} {machine : Machine} {op : Opcode} {text : String}

theorem textAt_of_performs {instruction : Instruction} {parameter : Token}
    (found : Instruction.at? program.tokens machine.cursor = some instruction)
    (performs : instruction.operation? = some (op, parameter)) :
    program.textAt machine = op.text? machine.abyss := by
  rw [textAt, found, Option.bind_some, performs, Option.bind_some]

theorem textAt_eq_some_iff :
    program.textAt machine = some text ↔ ∃ op, program.Prints machine op text := by
  constructor
  · intro writes
    obtain ⟨⟨op, parameter⟩, found, prints⟩ := Option.bind_eq_some_iff.1 writes
    obtain ⟨instruction, found, performs⟩ := Option.bind_eq_some_iff.1 found
    obtain ⟨b, rest, own, kind⟩ := Opcode.text?_eq_some_iff.1 prints
    refine ⟨op, ?_, b, rest, own, kind⟩
    rw [found]
    cases instruction with
    | unknown | truncated => contradiction
    | plain named =>
      rw [Instruction.operation?, Option.some.injEq, Prod.mk.injEq] at performs
      rw [performs.1]
    | applied named operand =>
      rw [Instruction.operation?, Option.some.injEq, Prod.mk.injEq] at performs
      have takes := Instruction.takesParameter_of_at?_applied found
      rw [performs.1] at takes
      rcases kind with ⟨rfl, -⟩ | ⟨rfl, -⟩ <;> contradiction
  · rintro ⟨op, found, prints⟩
    rw [textAt_of_performs found rfl]
    exact Opcode.text?_eq_some_iff.2 prints

variable {σ : Type} [Host σ]

theorem exists_effect (σ : Type) [Host σ] (program : Program) (machine : Machine) :
    (∃ frame effect, effect.reads = program.readsAt machine ∧
      effect.text? = program.textAt machine ∧
      ∀ host : σ, program.turn machine host = Turn.ofEffect (machine.enter frame) host effect) ∨
    (program.readsAt machine = false ∧ program.textAt machine = none ∧
      ((∀ host : σ, program.turn machine host = .ended) ∨
        ∃ failure left, ∀ host : σ, program.turn machine host = .failed failure left host)) := by
  cases found : Instruction.at? program.tokens machine.cursor with
  | none =>
    refine .inr ⟨by rw [readsAt, found]; rfl, by rw [textAt, found]; rfl, .inl ?_⟩
    intro host
    rw [turn, found]
  | some instruction =>
    cases performs : instruction.operation? with
    | some operation =>
      obtain ⟨op, parameter⟩ := operation
      refine .inl ⟨_, _, ?_, ?_, fun host => turn_eq found performs host⟩
      · rw [reads_perform, readsAt, found, Option.bind_some, performs]
        rfl
      · rw [text?_perform, textAt_of_performs found performs]
    | none =>
      refine .inr ⟨by rw [readsAt, found, Option.bind_some, performs]; rfl,
        by rw [textAt, found, Option.bind_some, performs]; rfl, .inr ?_⟩
      cases instruction with
      | plain | applied => contradiction
      | truncated op =>
        let entered := machine.enter (.instruction op machine.cursor)
        refine ⟨entered.calls.failure (.missingParameter op), entered, fun host => ?_⟩
        rw [turn, found]
      | unknown token =>
        refine ⟨machine.calls.failure (.invalidOpcode (Opcode.nameOf token)), machine,
          fun host => ?_⟩
        rw [turn, found]

/-- The text goes to the host as a whole, or the host refuses it and the run fails. -/
theorem turn_of_prints (prints : program.Prints machine op text) (host : σ) :
    program.turn machine host =
      Turn.ofEffect (machine.enter (.instruction op machine.cursor)) host
        (.write text ⟨machine.cursor + 1, ⟨machine.abyss.topFirst.tail⟩⟩) := by
  obtain ⟨⟨cursor, abyss⟩, calls⟩ := machine
  obtain ⟨found, b, rest, rfl, ⟨rfl, spelled⟩ | ⟨rfl, rfl⟩⟩ := prints
  · have letters : Effect.lettersOf b = .ok text := by rw [Effect.lettersOf, spelled]
    rw [turn_eq found rfl, perform, Effect.print, Abyss.pop]
    simp only [letters]
    rfl
  · rw [turn_eq found rfl]
    rfl

def texts (program : Program) (spare : Nat) (machine : Machine) (host : σ) : List String :=
  (program.trail spare machine host).filterMap program.textAt

variable {host after : σ} {spare : Nat}

theorem texts_of_done {calls : CallStack} {next : Machine}
    (done : program.turn machine host = .done calls next after) (spare : Nat) :
    program.texts (spare + 1) machine host =
      (program.textAt machine).toList ++ program.texts spare next after := by
  rw [texts, trail_of_done done, List.filterMap_cons, texts]
  cases program.textAt machine <;> rfl

theorem texts_of_last (last : program.trail spare machine host = [machine]) :
    program.texts spare machine host = (program.textAt machine).toList := by
  rw [texts, last, List.filterMap_cons]
  cases program.textAt machine <;> rfl

end Program

def Interpreter.jobOf {σ : Type} (i : Interpreter σ) : Submission → Option Job
  | .tokens tokens => (i.prepare tokens).toOption
  | .source text =>
    match Source.decode text with
    | .ok tokens => (i.prepare tokens).toOption
    | .error _ => none

theorem Interpreter.jobOf_with_host {σ : Type} (i : Interpreter σ) (host : σ)
    (submission : Submission) :
    { i with host := host }.jobOf submission = i.jobOf submission := by
  cases submission <;> rfl

variable {σ : Type} [Host σ]

structure Host.Records (P : σ → Prop) (taken : σ → List String) : Prop extends Host.Keeps P where
  reads : ∀ host, P host → taken (Host.read host).2 = taken host
  writes : ∀ host text, P host →
    ∃ after, Host.write host text = .ok after ∧ taken after = taken host ++ [text]

namespace Host.Records

variable {P : σ → Prop} {taken : σ → List String} {host : σ}

theorem taken_ofEffect (records : Host.Records P taken) (held : P host) (machine : Machine)
    (effect : Effect) :
    taken ((Turn.ofEffect machine host effect).host host) = taken host ++ effect.text?.toList := by
  cases effect with
  | proceed | fail => exact (List.append_nil _).symm
  | write text next =>
    obtain ⟨after, written, added⟩ := records.writes host text held
    simp only [Turn.ofEffect, written]
    exact added
  | read resume =>
    rw [Turn.host_ofEffect_of_reads rfl, records.reads host held]
    exact (List.append_nil _).symm

theorem taken_turn (records : Host.Records P taken) (held : P host) (program : Program)
    (machine : Machine) :
    taken ((program.turn machine host).host host) =
      taken host ++ (program.textAt machine).toList := by
  rcases program.exists_effect σ machine with ⟨frame, effect, -, text, same⟩ |
    ⟨-, untold, ended | ⟨failure, left, failed⟩⟩
  · rw [same, ← text]
    exact records.taken_ofEffect held _ effect
  · rw [ended, untold]
    exact (List.append_nil _).symm
  · rw [failed, untold]
    exact (List.append_nil _).symm

theorem taken_execute (records : Host.Records P taken) (held : P host) (program : Program)
    (spare : Nat) (machine : Machine) :
    taken (program.execute spare machine host).host =
      taken host ++ program.texts spare machine host := by
  induction spare, machine, host using Program.turns_induction σ program with
  | last spare machine host last =>
    rw [Program.execute_of_last last, Turn.host_stop, Program.texts_of_last last]
    exact records.taken_turn held program machine
  | more spare machine host calls next after done ih =>
    have added := records.taken_turn held program machine
    rw [done] at added
    change taken after = _ at added
    rw [Program.execute_of_done done, ih (records.of_turn held done), added,
      Program.texts_of_done done, List.append_assoc]

end Host.Records

def Job.texts (job : Job) (host : σ) : List String :=
  job.program.texts job.spare job.machine host

theorem Host.Records.taken_advance {P : σ → Prop} {taken : σ → List String} {host : σ}
    (records : Host.Records P taken) (held : P host) (job : Job) :
    taken (Interpreter.advance job host).2.host = taken host ++ job.texts host := by
  rw [Interpreter.host_advance]
  exact records.taken_execute held job.program job.spare job.machine

namespace Interpreter

theorem start_of_jobOf {σ : Type} {i : Interpreter σ} {submission : Submission} {job : Job}
    (begins : i.jobOf submission = some job) : job.machine = i.start := by
  have prepared {tokens : List Token} (begins : (i.prepare tokens).toOption = some job) :
      job.machine = i.start := by
    cases own : i.prepare tokens with
    | error failure => simp [own, Except.toOption] at begins
    | ok other =>
      rw [own, Except.toOption, Option.some.injEq] at begins
      subst begins
      exact (prepare_eq_ok own).2.1
  cases submission with
  | tokens tokens => exact prepared begins
  | source text =>
    rw [jobOf] at begins
    split at begins
    · exact prepared begins
    · contradiction

/-- Between two instructions only the frame of the run is on the stack. -/
theorem calls_of_mem_trail {i : Interpreter σ} {submission : Submission} {job : Job} {host : σ}
    {machine : Machine} (begins : i.jobOf submission = some job)
    (member : machine ∈ job.program.trail job.spare job.machine host) :
    machine.calls = ⟨[.run]⟩ := by
  obtain ⟨count, after, -, going⟩ := Program.mem_trail_iff.1 member
  rw [(Program.reaches_of_progress going).calls, start_of_jobOf begins, start_eq]

def readsOf (i : Interpreter σ) (submission : Submission) : Nat :=
  (i.jobOf submission).elim 0 (·.reads i.host)

def textsOf (i : Interpreter σ) (submission : Submission) : List String :=
  (i.jobOf submission).elim [] (·.texts i.host)

variable {i : Interpreter σ} {submission : Submission} {job : Job}

theorem readsOf_of_begins (begins : i.jobOf submission = some job) :
    i.readsOf submission = job.reads i.host := by
  rw [readsOf, begins]
  rfl

theorem textsOf_of_begins (begins : i.jobOf submission = some job) :
    i.textsOf submission = job.texts i.host := by
  rw [textsOf, begins]
  rfl

theorem readsOf_of_refused (refused : i.jobOf submission = none) : i.readsOf submission = 0 := by
  rw [readsOf, refused]
  rfl

theorem textsOf_of_refused (refused : i.jobOf submission = none) : i.textsOf submission = [] := by
  rw [textsOf, refused]
  rfl

theorem runTokens_cases (i : Interpreter σ) (tokens : List Token) :
    (∃ job, i.prepare tokens = .ok job ∧
      ∀ host : σ, { i with host := host }.runTokens tokens = advance job host) ∨
    ∃ failure, i.prepare tokens = .error failure ∧
      ∀ host : σ, { i with host := host }.runTokens tokens =
        (.failed failure, ⟨host, .empty, ⟨[.run, .resolveLabels]⟩, 0⟩) := by
  have same (host : σ) : { i with host := host }.prepare tokens = i.prepare tokens := rfl
  cases prepared : i.prepare tokens with
  | ok job =>
    refine .inl ⟨job, rfl, fun host => ?_⟩
    rw [runTokens, same, prepared]
  | error failure =>
    refine .inr ⟨failure, rfl, fun host => ?_⟩
    rw [runTokens, same, prepared]
    rfl

/-- On every host a submission begins with the same job, or it does not begin and asks nothing of
the host. -/
theorem run_cases (i : Interpreter σ) (submission : Submission) :
    (∃ job, i.jobOf submission = some job ∧
      ∀ host : σ, { i with host := host }.run submission = advance job host) ∨
    (i.jobOf submission = none ∧ ∃ failure abyss calls steps,
      ∀ host : σ, { i with host := host }.run submission =
        (.failed failure, ⟨host, abyss, calls, steps⟩)) := by
  cases submission with
  | tokens tokens =>
    rcases i.runTokens_cases tokens with ⟨job, prepared, runs⟩ | ⟨failure, prepared, runs⟩
    · exact .inl ⟨job, congrArg Except.toOption prepared, runs⟩
    · exact .inr ⟨congrArg Except.toOption prepared, failure, .empty, _, 0, runs⟩
  | source text =>
    simp only [run, runSource, jobOf]
    cases Source.decode text with
    | error fault => exact .inr ⟨rfl, _, i.abyss, i.calls, i.steps, fun host => rfl⟩
    | ok tokens =>
      rcases i.runTokens_cases tokens with ⟨job, prepared, runs⟩ | ⟨failure, prepared, runs⟩
      · exact .inl ⟨job, congrArg Except.toOption prepared, runs⟩
      · exact .inr ⟨congrArg Except.toOption prepared, failure, .empty, _, 0, runs⟩

end Interpreter

end AwaLang
