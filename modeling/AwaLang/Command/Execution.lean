import AwaLang.Assembly
import AwaLang.Command.Arguments
import AwaLang.Command.Folder
import AwaLang.Command.Log
import AwaLang.Host.Console
import AwaLang.Interpreter
import AwaLang.Listing
import AwaLang.Source.Encode
import AwaLang.TokenTable

namespace AwaLang.Command

inductive Fault
  | unreadable (path : String) (fault : ReadFault)
  | notProgram (path : String)
  | source (fault : Source.Fault)
  | assembly (fault : Assembly.Fault)
  | misfit (misfit : Source.Misfit)
  | run (failure : Failure)

def Fault.message : Fault → String
  | .unreadable path fault => s!"failed to read '{path}': {fault.message}"
  | .notProgram path => s!"expected a .awa file, got {path}"
  | .source fault => s!"lexer error: {fault.message}"
  | .assembly fault => s!"assembler error: {fault.message}"
  | .misfit m => s!"assembler error: {m.message}"
  | .run failure => failure.message

structure Pause where
  job : Job
  console : Console
  json : Bool
  /-- Whether the instruction that the run is in front of has been traced. -/
  traced : Bool

inductive Next
  | finish
  | fail (fault : Fault)
  | await (pause : Pause)

structure Segment where
  output : String
  log : List LogLine
  next : Next

namespace Segment

def failed (fault : Fault) (log : List LogLine) : Segment := ⟨"", log, .fail fault⟩

def printed (output : String) (log : List LogLine) : Segment := ⟨output, log, .finish⟩

end Segment

def decodingLog (decoded : Source.Decoded) : List LogLine :=
  let leftover : List LogLine :=
    if decoded.leftover = 0 then []
    else [⟨.debug, "discarding incomplete trailing token", [("bits", s!"{decoded.leftover}")]⟩]
  leftover ++ [⟨.debug, "decoded tokens", [("count", s!"{decoded.tokens.length}")]⟩]

def stepLog (program : Program) (machine : Machine) : List LogLine :=
  let step (op : Opcode) : LogLine :=
    ⟨.trace, "step", [("ip", s!"{machine.cursor}"), ("op", op.mnemonic),
      ("depth", s!"{machine.abyss.size}")]⟩
  match Instruction.at? program.tokens machine.cursor with
  | none => []
  | some (.unknown _) => []
  | some (.plain op) => [step op]
  | some (.truncated op) => [step op]
  | some (.applied op label) =>
    let lost : Bool := match op.jumps machine.abyss with
      | .ok taken => taken && (program.labels.find? label).isNone
      | .error _ => false
    if lost then
      [step op, ⟨.trace, "jump to undefined label ignored", [("label", s!"{label}")]⟩]
    else [step op]

def reportLog (report : Report) (steps : Nat) : List LogLine :=
  match report with
  | .finished result =>
    [⟨.debug, "run finished", [("steps", s!"{steps}"), ("result", result.text)]⟩]
  | .failed failure =>
    [⟨.debug, "run aborted", [("steps", s!"{steps}"), ("error", failure.cause.message)]⟩]
  | .waiting _ => []

/-- Moves a run on; its steps are followed only where they would be shown. -/
def Pause.resume (pause : Pause) (level : Level) : Segment :=
  let job := pause.job
  let steps : List LogLine :=
    if level.shows .trace then
      let trail := job.program.trail job.spare job.machine pause.console
      (trail.drop (if pause.traced then 1 else 0)).flatMap (stepLog job.program)
    else []
  let (report, after) := Interpreter.advance job pause.console
  let log := steps ++ reportLog report after.steps
  let output := after.host.output
  match report with
  | .finished result =>
    ⟨if pause.json then s!"{output}{String.ofList result.bracketed}\n" else output, log, .finish⟩
  | .failed failure => ⟨output, log, .fail (.run failure)⟩
  | .waiting job => ⟨output, log, .await ⟨job, after.host.forgetWrites, pause.json, true⟩⟩

def runDecoded (level : Level) (decoded : Source.Decoded) (console : Console) (json : Bool) :
    Segment :=
  let interpreter := Interpreter.new console
  match interpreter.prepare decoded.tokens with
  | .error failure =>
    .failed (.run failure) (decodingLog decoded ++ reportLog (.failed failure) 0)
  | .ok job =>
    let resolved : LogLine := ⟨.debug, "labels resolved",
      [("tokens", s!"{decoded.tokens.length}"), ("labels", s!"{job.program.labels.size}")]⟩
    let segment := Pause.resume ⟨job, console, json, false⟩ level
    { segment with log := decodingLog decoded ++ resolved :: segment.log }

/-- The lines given on the command line stand in for the console's. -/
def runSource (level : Level) (file source : String) (lines : List String) (json : Bool)
    (console : Console) : Segment :=
  let running : LogLine := ⟨.info, "running", [("file", file)]⟩
  let console := if lines.isEmpty then console else .ofLines lines
  match Source.decodeAll source with
  | .error fault => .failed (.run (.ofSource fault)) [running]
  | .ok decoded =>
    let segment := runDecoded level decoded console json
    { segment with log := running :: segment.log }

def showDecoded (source : String) (render : List Token → String) : Segment :=
  match Source.decodeAll source with
  | .error fault => .failed (.source fault) []
  | .ok decoded => .printed (render decoded.tokens) (decodingLog decoded)

def rule : String := String.ofList (List.replicate 40 '═')

def headedListing (tokens : List Token) : String :=
  s!"{rule}\n main\n {tokens.length} tokens\n{rule}\n{Listing.render tokens}"

def encodeSource (text : String) : Segment :=
  match Assembly.assemble text with
  | .error fault => .failed (.assembly fault) []
  | .ok tokens =>
    match Source.encode tokens with
    | .error misfit => .failed (.misfit misfit) []
    | .ok source => .printed s!"{source}\n" []

/-- All tasks but `encode` want a program by the name of its file. -/
def Invocation.accepts (invocation : Invocation) : Bool :=
  invocation.task = .encode || Path.isProgram invocation.file

def readText (content : Except ReadFault (List UInt8)) : Except ReadFault String :=
  match content with
  | .error fault => .error fault
  | .ok bytes =>
    match Text.Utf8.decode bytes with
    | .error _ => .error .notText
    | .ok text => .ok text

def Invocation.perform (invocation : Invocation) (level : Level) (text : String)
    (console : Console) : Segment :=
  match invocation.task with
  | .run lines json => runSource level invocation.file text lines json console
  | .tokens colour => showDecoded text (TokenTable.render colour)
  | .disasm => showDecoded text headedListing
  | .encode => encodeSource text

def Invocation.begin (invocation : Invocation) (level : Level)
    (content : Except ReadFault (List UInt8)) (console : Console) : Segment :=
  if !invocation.accepts then .failed (.notProgram invocation.file) []
  else
    match readText content with
    | .error fault => .failed (.unreadable invocation.file fault) []
    | .ok text => invocation.perform level text console

/-- A level that was asked for goes before the flag. -/
def Invocation.level (invocation : Invocation) (asked : Option Level) : Level :=
  asked.getD (if invocation.verbose then .debug else .warn)

structure Exit where
  code : Nat
  output : String
  errors : String
  deriving DecidableEq, Repr

def versionText : String := "awa 0.1.0\n"

def usageText : String :=
  "Usage: awa [-v] run FILE [-i LINE]... [--json]\n" ++
  "       awa [-v] tokens FILE [--no-color]\n" ++
  "       awa [-v] disasm FILE\n" ++
  "       awa [-v] encode FILE\n"

def Segment.errors (level : Level) (segment : Segment) : String :=
  let log := LogLine.render level segment.log
  match segment.next with
  | .fail fault => s!"{log}{fault.message}\n"
  | _ => log

def Segment.exit (level : Level) (segment : Segment) : Exit :=
  let code := match segment.next with
    | .fail _ => 1
    | _ => 0
  ⟨code, segment.output, segment.errors level⟩

/-- The whole command, with its files and all of its input known beforehand. -/
def answer (arguments : List String) (folder : Folder) (input : List UInt8) (asked : Option Level) :
    Exit :=
  match parse arguments with
  | .help => ⟨0, usageText, ""⟩
  | .version => ⟨0, versionText, ""⟩
  | .rejected => ⟨2, "", usageText⟩
  | .invoke invocation =>
    let level := invocation.level asked
    (invocation.begin level (folder.read invocation.file) (.ofBytes input)).exit level

end AwaLang.Command
