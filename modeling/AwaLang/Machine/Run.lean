import AwaLang.Host
import AwaLang.Machine.Step

/-!
Runs of a program on a host. A run goes on until the cursor is past the end, an instruction fails, a
line is needed that is not there yet, or the budget is used up. The budget counts instructions that
are done, and using it up fails even where the program would end.
-/

namespace AwaLang

/-- The state of a run. Between two instructions only the frames around the loop are on the stack;
while one is worked on, its own frame is on top of them. -/
structure Machine extends State where
  calls : CallStack
  deriving DecidableEq, Repr

def Machine.enter (machine : Machine) (frame : Frame) : Machine :=
  { machine with calls := machine.calls.push frame }

inductive Turn (σ : Type)
  | ended
  /-- The machine keeps its cursor, and the frames that it failed under. -/
  | failed (failure : Failure) (left : Machine) (host : σ)
  /-- The frame of the instruction that wants a line is among `calls`. -/
  | waiting (calls : CallStack) (host : σ)
  /-- An instruction is done. Its frame is still among `calls`; from `next` it has gone. -/
  | done (calls : CallStack) (next : Machine) (host : σ)

/-- What the effect of an instruction comes to on a host, with the frame of the instruction on top
of the machine's. -/
def Turn.ofEffect {σ : Type} [Host σ] (machine : Machine) (host : σ) : Effect → Turn σ :=
  let calls := machine.calls
  let succeed (next : State) (host : σ) : Turn σ := .done calls ⟨next, calls.pop⟩ host
  let fail (cause : Cause) (abyss : Abyss) (host : σ) : Turn σ :=
    .failed (calls.failure cause) { machine with abyss := abyss } host
  let supply (resumed : Except Cause State) (host : σ) : Turn σ :=
    match resumed with
    | .ok next => succeed next host
    | .error cause => fail cause machine.abyss host
  fun
  | .proceed next => succeed next host
  | .fail cause abyss => fail cause abyss host
  | .write text next =>
    match Host.write host text with
    | .ok host => succeed next host
    | .error message => fail (.io message) next.abyss host
  | .read resume =>
    match Host.read host with
    | (.line text, host) => supply (resume (some text)) host
    | (.endOfInput, host) => supply (resume none) host
    | (.notYet, host) => .waiting calls host
    | (.broken message, host) => fail (.io message) machine.abyss host

namespace Program

variable {σ : Type} [Host σ]

/-- Dispatches the instruction under the cursor. A token that names no operation is refused before
there is a frame for it. -/
def turn (program : Program) (machine : Machine) (host : σ) : Turn σ :=
  let entered (op : Opcode) : Machine := machine.enter (.instruction op machine.cursor)
  let dispatch (op : Opcode) (parameter : Token) (next : Nat) : Turn σ :=
    Turn.ofEffect (entered op) host (program.perform op parameter next machine.abyss)
  match Instruction.at? program.tokens machine.cursor with
  | none => .ended
  | some (.unknown token) =>
    .failed (machine.calls.failure (.invalidOpcode (Opcode.nameOf token))) machine host
  | some (.truncated op) =>
    .failed ((entered op).calls.failure (.missingParameter op)) (entered op) host
  | some (.plain op) => dispatch op 0 (machine.cursor + 1)
  | some (.applied op parameter) => dispatch op parameter (machine.cursor + 2)

/-- A run that has done this many instructions fails. -/
def limit : Nat := 10000

inductive Outcome
  | ended
  | failed (failure : Failure)
  /-- The machine is in front of an instruction that has no line yet. -/
  | waiting (machine : Machine) (spare : Nat)
  deriving DecidableEq, Repr

structure Stop (σ : Type) where
  outcome : Outcome
  abyss : Abyss
  calls : CallStack
  steps : Nat
  host : σ

/-- Runs on from a machine. The budget allows `spare` more instructions; one after them that is done
uses it up, which is found out before its frame is taken off. -/
def execute (program : Program) (spare : Nat) (machine : Machine) (host : σ) : Stop σ :=
  let steps := limit - 1 - spare
  match program.turn machine host with
  | .ended => ⟨.ended, machine.abyss, machine.calls, steps, host⟩
  | .failed failure left host => ⟨.failed failure, left.abyss, left.calls, steps, host⟩
  | .waiting calls host => ⟨.waiting machine spare, machine.abyss, calls, steps, host⟩
  | .done calls next host =>
    match spare with
    | 0 => ⟨.failed (calls.failure (.limitExceeded limit)), next.abyss, calls, limit, host⟩
    | spare + 1 => execute program spare next host

/-- The machines at which the run looks for an instruction, the first and the last included. -/
def trail (program : Program) (spare : Nat) (machine : Machine) (host : σ) : List Machine :=
  machine ::
    match program.turn machine host with
    | .done _ next host =>
      match spare with
      | 0 => []
      | spare + 1 => trail program spare next host
    | _ => []

end Program

end AwaLang
