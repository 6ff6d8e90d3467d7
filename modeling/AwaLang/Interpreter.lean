import AwaLang.Assembly
import AwaLang.Machine.Run

/-!
Interpreters, which run one program after another on a host. Whatever way a run ends, the abyss is
empty after it. A failed run leaves its frames on the stack and its steps in the count; the next one
begins by clearing both.
-/

namespace AwaLang

structure Job where
  program : Program
  machine : Machine
  /-- The instructions that the budget still allows. -/
  spare : Nat
  deriving DecidableEq, Repr

inductive Submission
  | source (text : String)
  | tokens (tokens : List Token)
  deriving DecidableEq, Repr

def Submission.ofAssembly (text : String) : Except Assembly.Fault Submission :=
  (Assembly.assemble text).map .tokens

inductive Report
  | finished (result : Bubble)
  | failed (failure : Failure)
  | waiting (job : Job)
  deriving DecidableEq, Repr

structure Interpreter (σ : Type) where
  host : σ
  abyss : Abyss
  calls : CallStack
  steps : Nat

namespace Interpreter

variable {σ : Type}

def new (host : σ) : Interpreter σ := ⟨host, .empty, .empty, 0⟩

def reset (i : Interpreter σ) : Interpreter σ := { i with calls := .empty, steps := 0 }

def enter (i : Interpreter σ) (frame : Frame) : Interpreter σ :=
  { i with calls := i.calls.push frame }

def leave (i : Interpreter σ) : Interpreter σ := { i with calls := i.calls.pop }

def resultOf (abyss : Abyss) : Bubble := abyss.topFirst.headD (.scalar 0)

/-- The interpreter at the beginning of a run, in front of the label table. -/
def resolving (i : Interpreter σ) : Interpreter σ := (i.reset.enter .run).enter .resolveLabels

def start (i : Interpreter σ) : Machine := ⟨⟨0, i.abyss⟩, i.resolving.leave.calls⟩

/-- The run of a stream from the interpreter's abyss, unless its labels cannot be told. -/
def prepare (i : Interpreter σ) (tokens : List Token) : Except Failure Job :=
  match Program.ofTokens? tokens with
  | some program => .ok ⟨program, i.start, Program.limit - 1 - i.resolving.steps⟩
  | none => .error (i.resolving.calls.failure (.missingParameter .lbl))

theorem calls_resolving (i : Interpreter σ) : i.resolving.calls = ⟨[.run, .resolveLabels]⟩ := rfl

theorem steps_resolving (i : Interpreter σ) : i.resolving.steps = 0 := rfl

theorem start_eq (i : Interpreter σ) : i.start = ⟨⟨0, i.abyss⟩, ⟨[.run]⟩⟩ := rfl

variable [Host σ]

/-- Moves a run on as far as it goes. Only a run that ends takes its frame off the stack. -/
def advance (job : Job) (host : σ) : Report × Interpreter σ :=
  let stop := job.program.execute job.spare job.machine host
  let after : Interpreter σ := ⟨stop.host, .empty, stop.calls, stop.steps⟩
  match stop.outcome with
  | .ended => (.finished (resultOf stop.abyss), after.leave)
  | .failed failure => (.failed failure, after)
  | .waiting machine spare => (.waiting ⟨job.program, machine, spare⟩, after)

def runTokens (i : Interpreter σ) (tokens : List Token) : Report × Interpreter σ :=
  match i.prepare tokens with
  | .ok job => advance job i.host
  | .error failure => (.failed failure, { i.resolving with abyss := .empty })

def runSource (i : Interpreter σ) (source : String) : Report × Interpreter σ :=
  match Source.decode source with
  | .ok tokens => i.runTokens tokens
  | .error fault => (.failed (.ofSource fault), i)

def run (i : Interpreter σ) : Submission → Report × Interpreter σ
  | .source text => i.runSource text
  | .tokens tokens => i.runTokens tokens

end Interpreter

end AwaLang
