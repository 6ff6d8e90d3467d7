import AwaLang.Abyss
import AwaLang.Bubble.Arithmetic
import AwaLang.Source.Decode

namespace AwaLang

inductive Cause
  | malformedSource (fault : Source.Fault)
  | stackUnderflow (op : Opcode) (underflow : Underflow)
  | missingParameter (op : Opcode)
  | invalidOpcode (name : List Char)
  | alphabet (fault : Alphabet.Fault)
  | notNumeric (text : List Char)
  | divisionByZero (op : Opcode)
  | overflow (op : Opcode)
  | limitExceeded (limit : Nat)
  | io (message : String)
  deriving DecidableEq, Repr

def Cause.message : Cause → String
  | .malformedSource fault => s!"syntax error: {fault.message}"
  | .stackUnderflow op u =>
    s!"{op.mnemonic}: stack underflow (needs {u.needed} bubbles, found {u.found})"
  | .missingParameter op => s!"{op.mnemonic}: missing parameter"
  | .invalidOpcode name => s!"invalid opcode {String.ofList name}"
  | .alphabet fault => s!"range error: {fault.message}"
  | .notNumeric text => s!"type error: {Text.quoted text} is not a number"
  | .divisionByZero op => s!"{op.mnemonic}: division by zero"
  | .overflow op => s!"{op.mnemonic}: arithmetic overflow"
  | .limitExceeded limit => s!"operation limit exceeded ({limit})"
  | .io message => s!"io error: {message}"

def Cause.ofArithmetic (op : Opcode) : ArithmeticFault → Cause
  | .divisionByZero => .divisionByZero op
  | .overflow => .overflow op

inductive Frame
  | activity (name : String)
  | instruction (op : Opcode) (address : Nat)
  deriving DecidableEq, Repr

namespace Frame

def text : Frame → String
  | activity name => name
  | instruction op address => s!"{op.mnemonic}@{address}"

def run : Frame := activity "run"

def tokenize : Frame := activity "tokenize"

def resolveLabels : Frame := activity "resolve labels"

end Frame

structure Failure where
  cause : Cause
  /-- The outermost frame first. -/
  frames : List Frame
  deriving DecidableEq, Repr

namespace Failure

def ofCause (cause : Cause) : Failure := ⟨cause, []⟩

def withTrace (failure : Failure) (frames : List Frame) : Failure :=
  { failure with frames := frames }

def withContext (failure : Failure) (frame : Frame) : Failure :=
  { failure with frames := failure.frames ++ [frame] }

def ofSource (fault : Source.Fault) : Failure :=
  (ofCause (.malformedSource fault)).withContext .tokenize

/-- The cause and, unless there are none, the frames from the innermost on. -/
def message (failure : Failure) : String :=
  let numbered := failure.frames.reverse.zipIdx.map fun (frame, i) => s!"\n    {i}: {frame.text}"
  let trace := if failure.frames.isEmpty then "" else "\n  call stack:" ++ String.join numbered
  s!"runtime error: {failure.cause.message}{trace}"

end Failure

/-- The frames of what is being worked on, the outermost first. -/
structure CallStack where
  frames : List Frame
  deriving DecidableEq, Repr

namespace CallStack

def empty : CallStack := ⟨[]⟩

def push (calls : CallStack) (frame : Frame) : CallStack := ⟨calls.frames ++ [frame]⟩

def pop (calls : CallStack) : CallStack := ⟨calls.frames.dropLast⟩

def failure (calls : CallStack) (cause : Cause) : Failure :=
  (Failure.ofCause cause).withTrace calls.frames

variable (calls : CallStack) (frame : Frame) (cause : Cause)

@[simp] theorem frames_push : (calls.push frame).frames = calls.frames ++ [frame] := rfl

@[simp] theorem pop_push : (calls.push frame).pop = calls := by
  simp [push, pop]

@[simp] theorem cause_failure : (calls.failure cause).cause = cause := rfl

end CallStack

end AwaLang
