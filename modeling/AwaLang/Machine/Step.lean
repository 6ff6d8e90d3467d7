import AwaLang.Failure
import AwaLang.Labels
import AwaLang.Text.Blank

/-!
The effect of one instruction. What an instruction asks of the outside is part of its effect, so
that the rules stand here once, whatever the outside is.
-/

namespace AwaLang

structure Program where
  tokens : List Token
  labels : Labels
  deriving DecidableEq, Repr

/-- What an instruction works on: the index of the next token, and the abyss. -/
structure State where
  cursor : Nat
  abyss : Abyss
  deriving DecidableEq, Repr

/-- Whether the jump of `op` is taken; the bubbles it looks at stay in the abyss. -/
def Opcode.jumps (op : Opcode) (abyss : Abyss) : Except Underflow Bool :=
  match op with
  | .jmp => .ok true
  | .eql => abyss.peekTwo.map fun (a, b) => a == b
  | .lss => abyss.peekTwo.map fun (a, b) => a.less b
  | .gr8 => abyss.peekTwo.map fun (a, b) => a.greater b
  | .eqz => abyss.peek.map Bubble.isZero
  | _ => .ok false

inductive Effect
  | proceed (next : State)
  | write (text : String) (next : State)
  /-- Goes on with a line, or with none at the end of the input. -/
  | read (resume : Option String → Except Cause State)
  /-- The abyss is as the instruction left it. -/
  | fail (cause : Cause) (abyss : Abyss)

namespace Effect

/-- The bubble of a line of letters; an empty line, like none, gives zero. -/
def lettersIn (line : Option String) : Except Cause Bubble :=
  match (line.elim [] String.toList).mapM Alphabet.indexOf with
  | .ok indices => .ok (.ofInts indices)
  | .error fault => .error (.alphabet fault)

/-- The scalar that a line spells; a blank line, like none, gives zero. -/
def numeralIn (line : Option String) : Except Cause Bubble :=
  match Text.trim (line.elim [] String.toList) with
  | [] => .ok (.scalar 0)
  | text =>
    match Text.integer? Bubble.least Bubble.greatest text with
    | some n => .ok (.scalar n)
    | none => .error (.notNumeric text)

def input (next : Nat) (abyss : Abyss) (bubbleIn : Option String → Except Cause Bubble) : Effect :=
  .read fun line => (bubbleIn line).map fun b => ⟨next, abyss.push b⟩

def lettersOf (b : Bubble) : Except Cause String :=
  match b.letters with
  | .ok text => .ok text
  | .error fault => .error (.alphabet fault)

def print (op : Opcode) (next : Nat) (abyss : Abyss) (textOf : Bubble → Except Cause String) :
    Effect :=
  match abyss.pop with
  | .error underflow => .fail (.stackUnderflow op underflow) abyss
  | .ok (b, rest) =>
    match textOf b with
    | .ok text => .write text ⟨next, rest⟩
    | .error cause => .fail cause rest

def rearrange (op : Opcode) (next : Nat) (abyss : Abyss) (result : Except Underflow Abyss) :
    Effect :=
  match result with
  | .ok after => .proceed ⟨next, after⟩
  | .error underflow => .fail (.stackUnderflow op underflow) abyss

def calculate (op : Opcode) (next : Nat) (abyss : Abyss) : Effect :=
  match abyss.popTwo with
  | .error underflow => .fail (.stackUnderflow op underflow) abyss
  | .ok (a, b, rest) =>
    match op.arithmetic? with
    | none => .fail (.invalidOpcode op.spelling) rest
    | some arithmetic =>
      match a.combine arithmetic b with
      | .ok result => .proceed ⟨next, rest.push result⟩
      | .error fault => .fail (.ofArithmetic arithmetic.opcode fault) rest

def branch (labels : Labels) (op : Opcode) (label : Token) (next : Nat) (abyss : Abyss) : Effect :=
  match op.jumps abyss with
  | .ok taken => .proceed ⟨if taken then labels.goto label next else next, abyss⟩
  | .error underflow => .fail (.stackUnderflow op underflow) abyss

end Effect

namespace Program

def ofTokens? (tokens : List Token) : Option Program :=
  (Labels.ofTokens? tokens).map (⟨tokens, ·⟩)

/-- The effect of `op`, with the token after it if it takes one; `next` is the index past both. A
negative depth or count is taken as zero. -/
def perform (program : Program) (op : Opcode) (parameter : Token) (next : Nat) (abyss : Abyss) :
    Effect :=
  match op with
  | .nop | .lbl => .proceed ⟨next, abyss⟩
  | .trm => .proceed ⟨program.tokens.length, abyss⟩
  | .prn => .print op next abyss Effect.lettersOf
  | .pr1 => .print op next abyss fun b => .ok b.text
  | .red => .input next abyss Effect.lettersIn
  | .r3d => .input next abyss Effect.numeralIn
  | .blo => .proceed ⟨next, abyss.push (.scalar parameter)⟩
  | .sbm => .rearrange op next abyss (abyss.submerge parameter.toNat)
  | .pop => .rearrange op next abyss abyss.split
  | .dpl => .rearrange op next abyss abyss.duplicate
  | .srn => .rearrange op next abyss (abyss.surround parameter.toNat)
  | .mrg => .rearrange op next abyss abyss.merge
  | .cnt => .rearrange op next abyss abyss.count
  | .add | .sub | .mul | .div => .calculate op next abyss
  | .jmp | .eql | .lss | .gr8 | .eqz => .branch program.labels op parameter next abyss

end Program

end AwaLang
