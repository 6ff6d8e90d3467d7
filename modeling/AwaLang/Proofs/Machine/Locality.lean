import AwaLang.Proofs.Abyss.Locality
import AwaLang.Proofs.Machine.Texts

/-!
Runs on the upper part of an abyss. As long as no bubble sinks and the bubbles above are enough, a
run does not find out that there are others below them: it takes the same turns, asks the same of
its host, and leaves what is below as it was.
-/

namespace AwaLang

def State.above (state : State) (base : Abyss) : State :=
  { state with abyss := state.abyss.above base }

def Machine.above (machine : Machine) (base : Abyss) : Machine :=
  { machine with abyss := machine.abyss.above base }

def Instruction.sinks (instruction : Instruction) : Bool :=
  instruction.operation?.any (·.1 == .sbm)

def Cause.isUnderflow : Cause → Bool
  | stackUnderflow _ _ => true
  | _ => false

theorem Opcode.jumps_above {op : Opcode} {abyss : Abyss} {taken : Bool}
    (jumps : op.jumps abyss = .ok taken) (base : Abyss) :
    op.jumps (abyss.above base) = .ok taken := by
  cases op with
  | eql | lss | gr8 =>
    obtain ⟨⟨a, b⟩, seen, same⟩ := exists_of_map_eq_ok jumps
    rw [Opcode.jumps, Abyss.peekTwo_above seen, ← same]
    rfl
  | eqz =>
    obtain ⟨a, seen, same⟩ := exists_of_map_eq_ok jumps
    rw [Opcode.jumps, Abyss.peek_above seen, ← same]
    rfl
  | _ => exact jumps

namespace Effect

def above (effect : Effect) (base : Abyss) : Effect :=
  match effect with
  | proceed next => .proceed (next.above base)
  | write text next => .write text (next.above base)
  | read resume => .read fun line => (resume line).map (·.above base)
  | fail cause abyss => .fail cause (abyss.above base)

def underflows : Effect → Bool
  | fail cause _ => cause.isUnderflow
  | _ => false

variable {op : Opcode} {next : Nat} {abyss base : Abyss}

theorem input_above (bubbleIn : Option String → Except Cause Bubble) :
    input next (abyss.above base) bubbleIn = (input next abyss bubbleIn).above base := by
  simp only [input, above]
  congr 1
  funext line
  cases bubbleIn line <;> rfl

theorem print_above {textOf : Bubble → Except Cause String}
    (enough : (print op next abyss textOf).underflows = false) :
    print op next (abyss.above base) textOf = (print op next abyss textOf).above base := by
  cases popped : abyss.pop with
  | error underflow =>
    rw [print, popped] at enough
    contradiction
  | ok popping =>
    obtain ⟨b, rest⟩ := popping
    rw [print, print, popped, Abyss.pop_above popped]
    dsimp only
    cases textOf b <;> rfl

theorem rearrange_above {result other : Except Underflow Abyss}
    (enough : (rearrange op next abyss result).underflows = false)
    (same : ∀ after, result = .ok after → other = .ok (after.above base)) :
    rearrange op next (abyss.above base) other = (rearrange op next abyss result).above base := by
  cases result with
  | error underflow => contradiction
  | ok after =>
    rw [same after rfl]
    rfl

theorem calculate_above (enough : (calculate op next abyss).underflows = false) :
    calculate op next (abyss.above base) = (calculate op next abyss).above base := by
  cases popped : abyss.popTwo with
  | error underflow =>
    rw [calculate, popped] at enough
    contradiction
  | ok popping =>
    obtain ⟨a, b, rest⟩ := popping
    rw [calculate, calculate, popped, Abyss.popTwo_above popped]
    cases op.arithmetic? with
    | none => rfl
    | some arithmetic =>
      dsimp only
      cases a.combine arithmetic b <;> rfl

theorem branch_above {labels : Labels} {label : Token}
    (enough : (branch labels op label next abyss).underflows = false) :
    branch labels op label next (abyss.above base) =
      (branch labels op label next abyss).above base := by
  cases jumps : op.jumps abyss with
  | error underflow =>
    rw [branch, jumps] at enough
    contradiction
  | ok taken =>
    rw [branch, branch, jumps, Opcode.jumps_above jumps]
    rfl

theorem text?_above (effect : Effect) (base : Abyss) :
    (effect.above base).text? = effect.text? := by
  cases effect <;> rfl

end Effect

theorem Program.perform_above {program : Program} {op : Opcode} {parameter : Token} {next : Nat}
    {abyss : Abyss} (stays : op ≠ .sbm)
    (enough : (program.perform op parameter next abyss).underflows = false) (base : Abyss) :
    program.perform op parameter next (abyss.above base) =
      (program.perform op parameter next abyss).above base := by
  cases op with
  | nop | lbl | trm | blo => rfl
  | prn | pr1 =>
    rw [perform] at enough
    rw [perform, perform]
    exact Effect.print_above enough
  | red | r3d => exact Effect.input_above _
  | sbm => exact absurd rfl stays
  | pop => exact Effect.rearrange_above enough fun after done => Abyss.split_above done base
  | dpl => exact Effect.rearrange_above enough fun after done => Abyss.duplicate_above done base
  | srn => exact Effect.rearrange_above enough fun after done => Abyss.surround_above done base
  | mrg => exact Effect.rearrange_above enough fun after done => Abyss.merge_above done base
  | cnt => exact Effect.rearrange_above enough fun after done => Abyss.count_above done base
  | add | sub | mul | div => exact Effect.calculate_above enough
  | jmp | eql | lss | gr8 | eqz =>
    rw [perform] at enough
    rw [perform, perform]
    exact Effect.branch_above enough

variable {σ : Type}

namespace Program

def Outcome.underflows : Outcome → Bool
  | failed failure => failure.cause.isUnderflow
  | _ => false

def Outcome.above (outcome : Outcome) (base : Abyss) : Outcome :=
  match outcome with
  | ended => .ended
  | failed failure => .failed failure
  | waiting machine spare => .waiting (machine.above base) spare

def Stop.above (stop : Stop σ) (base : Abyss) : Stop σ :=
  ⟨stop.outcome.above base, stop.abyss.above base, stop.calls, stop.steps, stop.host⟩

theorem Stop.callsAfter_above (stop : Stop σ) (base : Abyss) :
    (stop.above base).callsAfter = stop.callsAfter := by
  obtain ⟨outcome, abyss, calls, steps, host⟩ := stop
  cases outcome <;> rfl

end Program

namespace Turn

def above (turn : Turn σ) (base : Abyss) : Turn σ :=
  match turn with
  | ended => .ended
  | failed failure left host => .failed failure (left.above base) host
  | waiting calls host => .waiting calls host
  | done calls next host => .done calls (next.above base) host

def underflows : Turn σ → Bool
  | failed failure _ _ => failure.cause.isUnderflow
  | _ => false

theorem stop_above (spare : Nat) (machine : Machine) (host : σ) (turn : Turn σ) (base : Abyss) :
    (turn.above base).stop spare (machine.above base) host =
      (turn.stop spare machine host).above base := by
  cases turn <;> rfl

theorem underflows_of_stop {spare : Nat} {machine : Machine} {host : σ} {turn : Turn σ}
    (enough : (turn.stop spare machine host).outcome.underflows = false) :
    turn.underflows = false := by
  cases turn with
  | failed => exact enough
  | ended | waiting | done => rfl

variable [Host σ]

theorem ofEffect_above (machine : Machine) (base : Abyss) (host : σ) (effect : Effect) :
    Turn.ofEffect (machine.above base) host (effect.above base) =
      (Turn.ofEffect machine host effect).above base := by
  cases effect with
  | proceed | fail => rfl
  | write text next =>
    simp only [Effect.above, ofEffect]
    cases Host.write host text <;> rfl
  | read resume =>
    simp only [Effect.above, ofEffect]
    rcases Host.read host with ⟨answer, after⟩
    cases answer with
    | line text =>
      dsimp only
      cases resume (some text) <;> rfl
    | endOfInput =>
      dsimp only
      cases resume none <;> rfl
    | notYet | broken => rfl

/-- A host never makes an underflow, and it cannot undo one. -/
theorem underflows_of_effect {machine : Machine} {host : σ} {effect : Effect}
    (enough : (Turn.ofEffect machine host effect).underflows = false) :
    effect.underflows = false := by
  cases effect with
  | fail => exact enough
  | proceed | write | read => rfl

end Turn

namespace Program

variable [Host σ] {program : Program} {machine : Machine} {host : σ}

theorem turn_above
    (stays : ∀ instruction, Instruction.at? program.tokens machine.cursor = some instruction →
      instruction.sinks = false)
    (enough : (program.turn machine host).underflows = false) (base : Abyss) :
    program.turn (machine.above base) host = (program.turn machine host).above base ∧
      program.textAt (machine.above base) = program.textAt machine := by
  cases found : Instruction.at? program.tokens machine.cursor with
  | none =>
    have also : Instruction.at? program.tokens (machine.above base).cursor = none := found
    rw [turn, turn, textAt, textAt, found, also]
    exact ⟨rfl, rfl⟩
  | some instruction =>
    have also : Instruction.at? program.tokens (machine.above base).cursor = some instruction :=
      found
    cases performs : instruction.operation? with
    | none =>
      rw [turn, turn, textAt, textAt, found, also, Option.bind_some, performs]
      cases instruction with
      | plain | applied => contradiction
      | truncated | unknown => exact ⟨rfl, rfl⟩
    | some operation =>
      obtain ⟨op, parameter⟩ := operation
      have stays : op ≠ .sbm := by simpa [Instruction.sinks, performs] using stays instruction found
      rw [turn_eq found performs] at enough
      have same := perform_above stays (Turn.underflows_of_effect enough) base
      have texts := Effect.text?_above
        (program.perform op parameter (machine.cursor + instruction.length) machine.abyss) base
      rw [← same, text?_perform, text?_perform] at texts
      rw [turn_eq found performs, turn_eq also performs, textAt_of_performs found performs,
        textAt_of_performs also performs, ← Turn.ofEffect_above, ← same]
      exact ⟨rfl, texts⟩

theorem trail_above_of_last {spare : Nat} {base : Abyss}
    (same : program.turn (machine.above base) host = (program.turn machine host).above base)
    (last : program.trail spare machine host = [machine]) :
    program.trail spare (machine.above base) host = [machine.above base] := by
  rw [trail.eq_def, same]
  cases taken : program.turn machine host with
  | ended | failed | waiting => rfl
  | done calls next after =>
    obtain rfl := spare_eq_zero_of_last last taken
    rfl

theorem answers_of_done {calls : CallStack} {next : Machine} {after : σ}
    (done : program.turn machine host = .done calls next after) (spare : Nat) :
    program.answers (spare + 1) machine host =
      program.answerAt machine host ++ program.answers spare next after := by
  rw [answers, done]

theorem answers_of_last {spare : Nat} (last : program.trail spare machine host = [machine]) :
    program.answers spare machine host = program.answerAt machine host := by
  rw [answers.eq_def]
  cases taken : program.turn machine host with
  | ended | failed | waiting => exact List.append_nil _
  | done calls next after =>
    obtain rfl := spare_eq_zero_of_last last taken
    exact List.append_nil _

def NeverSinks (σ : Type) [Host σ] (program : Program) (start : Machine) : Prop :=
  ∀ machine instruction, program.Reaches σ start machine →
    Instruction.at? program.tokens machine.cursor = some instruction → instruction.sinks = false

theorem NeverSinks.of_reaches {next : Machine} (never : program.NeverSinks σ machine)
    (reaches : program.Reaches σ machine next) : program.NeverSinks σ next :=
  fun last instruction further => never last instruction (reaches.trans further)

/-- A run on the upper bubbles is the same with others below them, as long as it has enough: its
reads are answered the same, it has the same texts, and it stops alike. -/
theorem execute_above {spare : Nat} (never : program.NeverSinks σ machine)
    (enough : (program.execute spare machine host).outcome.underflows = false) (base : Abyss) :
    program.execute spare (machine.above base) host =
        (program.execute spare machine host).above base ∧
      program.answers spare (machine.above base) host = program.answers spare machine host ∧
      program.texts spare (machine.above base) host = program.texts spare machine host := by
  induction spare, machine, host using turns_induction σ program with
  | last spare machine host last =>
    rw [execute_of_last last] at enough ⊢
    obtain ⟨same, text⟩ := turn_above (fun instruction => never machine instruction .refl)
      (Turn.underflows_of_stop enough) base
    have also := trail_above_of_last same last
    rw [execute_of_last also, same, Turn.stop_above, answers_of_last also, answers_of_last last,
      texts_of_last also, texts_of_last last, text]
    exact ⟨rfl, rfl, rfl⟩
  | more spare machine host calls next after taken ih =>
    rw [execute_of_done taken] at enough ⊢
    have calm : (program.turn machine host).underflows = false := by
      rw [taken]
      rfl
    obtain ⟨same, text⟩ := turn_above (fun instruction => never machine instruction .refl) calm base
    rw [taken] at same
    obtain ⟨stop, answers, texts⟩ := ih (never.of_reaches (.turn .refl taken)) enough
    rw [execute_of_done same, answers_of_done same, answers_of_done taken, texts_of_done same,
      texts_of_done taken, answers, texts, text]
    exact ⟨stop, rfl, rfl⟩

end Program

end AwaLang
