/-!
The arguments of the command line. Options stand before or after the command they belong to, each
flag once on its side; short options may share a dash, and a value may be joined to its option. A
double dash ends the options of a command.
-/

namespace AwaLang.Command

inductive Task
  | run (lines : List String) (json : Bool)
  | tokens (colour : Bool)
  | disasm
  | encode
  deriving DecidableEq, Repr

structure Invocation where
  task : Task
  file : String
  verbose : Bool
  deriving DecidableEq, Repr

inductive Parsed
  | invoke (invocation : Invocation)
  | help
  | version
  | rejected
  deriving DecidableEq, Repr

inductive CommandName
  | run
  | tokens
  | disasm
  | encode
  deriving DecidableEq, Repr

def CommandName.ofText? : String → Option CommandName
  | "run" => some run
  | "tokens" => some tokens
  | "disasm" => some disasm
  | "encode" => some encode
  | _ => none

structure Gathered where
  file : Option String
  lines : List String
  verbose : Bool
  json : Bool
  plain : Bool
  deriving DecidableEq, Repr

namespace Gathered

def empty : Gathered := ⟨none, [], false, false, false⟩

def addFile (g : Gathered) (file : String) : Option Gathered :=
  if file.isEmpty || g.file.isSome then none else some { g with file := some file }

def addLine (g : Gathered) (line : String) : Gathered := { g with lines := g.lines ++ [line] }

def setVerbose (g : Gathered) : Option Gathered :=
  if g.verbose then none else some { g with verbose := true }

def setJson (g : Gathered) : Option Gathered :=
  if g.json then none else some { g with json := true }

def setPlain (g : Gathered) : Option Gathered :=
  if g.plain then none else some { g with plain := true }

def finish (g : Gathered) (name : CommandName) (verbose : Bool) : Parsed :=
  match g.file with
  | none => .rejected
  | some file =>
    let task : Task := match name with
      | .run => .run g.lines g.json
      | .tokens => .tokens (!g.plain)
      | .disasm => .disasm
      | .encode => .encode
    .invoke ⟨task, file, verbose || g.verbose⟩

end Gathered

inductive Shape
  | positional (text : String)
  | endOfOptions
  | long (name : List Char) (value : Option (List Char))
  | short (letters : List Char)

def Shape.of (argument : String) : Shape :=
  match argument.toList with
  | ['-', '-'] => .endOfOptions
  | '-' :: '-' :: rest =>
    match rest.dropWhile (· != '=') with
    | [] => .long rest none
    | _ :: value => .long (rest.takeWhile (· != '=')) (some value)
  | '-' :: c :: rest => .short (c :: rest)
  | _ => .positional argument

def isValue (argument : String) : Bool :=
  match argument.toList with
  | '-' :: _ :: _ => false
  | _ => true

inductive Advance
  | more (g : Gathered)
  | wantsLine (g : Gathered)
  | stop (parsed : Parsed)

def Advance.ofOption : Option Gathered → Advance
  | some g => .more g
  | none => .stop .rejected

def takeLong (name : CommandName) (g : Gathered) (option : List Char) (value : Option (List Char)) :
    Advance :=
  match name, String.ofList option, value with
  | _, "verbose", none => .ofOption g.setVerbose
  | _, "help", none => .stop .help
  | .run, "json", none => .ofOption g.setJson
  | .tokens, "no-color", none => .ofOption g.setPlain
  | .run, "input", none => .wantsLine g
  | .run, "input", some value => .more (g.addLine (String.ofList value))
  | _, _, _ => .stop .rejected

def takeShort (name : CommandName) (g : Gathered) : List Char → Advance
  | [] => .more g
  | 'v' :: rest =>
    match g.setVerbose with
    | some g => takeShort name g rest
    | none => .stop .rejected
  | 'h' :: _ => .stop .help
  | 'i' :: rest =>
    match name, rest with
    | .run, [] => .wantsLine g
    | .run, '=' :: value => .more (g.addLine (String.ofList value))
    | .run, value => .more (g.addLine (String.ofList value))
    | _, _ => .stop .rejected
  | _ => .stop .rejected

def parseFiles (g : Gathered) : List String → Option Gathered
  | [] => some g
  | file :: rest => (g.addFile file).bind (parseFiles · rest)

def parseCommand (name : CommandName) (verbose : Bool) (g : Gathered) (awaiting : Bool) :
    List String → Parsed
  | [] => if awaiting then .rejected else g.finish name verbose
  | argument :: rest =>
    if awaiting then
      if isValue argument then parseCommand name verbose (g.addLine argument) false rest
      else .rejected
    else
      let advance : Advance := match Shape.of argument with
        | .positional file => .ofOption (g.addFile file)
        | .long option value => takeLong name g option value
        | .short letters => takeShort name g letters
        | .endOfOptions =>
          match parseFiles g rest with
          | some g => .stop (g.finish name verbose)
          | none => .stop .rejected
      match advance with
      | .more g => parseCommand name verbose g false rest
      | .wantsLine g => parseCommand name verbose g true rest
      | .stop parsed => parsed

def parseHelp : List String → Parsed
  | [] => .help
  | [name] => if name = "help" || (CommandName.ofText? name).isSome then .help else .rejected
  | _ => .rejected

/-- The flags before the command: whether they leave `verbose` set, or what they end in. -/
def takeFlags (verbose : Bool) : List Char → Except Parsed Bool
  | [] => .ok verbose
  | 'v' :: rest => if verbose then .error .rejected else takeFlags true rest
  | 'h' :: _ => .error .help
  | 'V' :: _ => .error .version
  | _ => .error .rejected

def takeLongFlag (verbose : Bool) (option : List Char) (value : Option (List Char)) :
    Except Parsed Bool :=
  match String.ofList option, value with
  | "verbose", none => if verbose then .error .rejected else .ok true
  | "help", none => .error .help
  | "version", none => .error .version
  | _, _ => .error .rejected

def parseFrom (verbose : Bool) : List String → Parsed
  | [] => .rejected
  | argument :: rest =>
    match Shape.of argument with
    | .endOfOptions => .rejected
    | .positional "help" => parseHelp rest
    | .positional text =>
      match CommandName.ofText? text with
      | some name => parseCommand name verbose .empty false rest
      | none => .rejected
    | .long option value =>
      match takeLongFlag verbose option value with
      | .ok verbose => parseFrom verbose rest
      | .error parsed => parsed
    | .short letters =>
      match takeFlags verbose letters with
      | .ok verbose => parseFrom verbose rest
      | .error parsed => parsed

def parse (arguments : List String) : Parsed := parseFrom false arguments

end AwaLang.Command
