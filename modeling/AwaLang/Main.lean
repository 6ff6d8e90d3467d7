import AwaLang.Command.Execution

namespace AwaLang.Command

partial def readLine (input : IO.FS.Stream) (line : List UInt8) : IO (List UInt8) := do
  match (← input.read 1).toList with
  | byte :: _ => if byte = 10 then return (byte :: line).reverse else readLine input (byte :: line)
  | [] => return line.reverse

def faultOf : IO.Error → ReadFault
  | .noFileOrDirectory .. => .notFound
  | .inappropriateType _ code _ => if code = 21 then .isFolder else .notFolder
  | .invalidArgument _ _ "name too long" => .nameTooLong
  | .permissionDenied .. => .other "Permission denied (os error 13)"
  | error => .other (toString error)

def readFile (path : String) : IO (Except ReadFault (List UInt8)) := do
  try
    let content ← IO.FS.readBinFile path
    return .ok content.toList
  catch error => return .error (faultOf error)

partial def carryOn (level : Level) (input : IO.FS.Stream) (segment : Segment) : IO UInt32 := do
  let output ← IO.getStdout
  output.putStr segment.output
  output.flush
  IO.eprint (segment.errors level)
  match segment.next with
  | .finish => return 0
  | .fail _ => return 1
  | .await pause =>
    let line ← readLine input []
    let console := if line.isEmpty then pause.console.close else pause.console.feed line
    carryOn level input (Pause.resume { pause with console := console } level)

def invoke (invocation : Invocation) : IO UInt32 := do
  let asked := (← IO.getEnv "AWA_LOG").bind Level.ofName?
  let level := invocation.level asked
  let content ← readFile invocation.file
  carryOn level (← IO.getStdin) (invocation.begin level content .live)

end AwaLang.Command

def main (arguments : List String) : IO UInt32 := do
  match AwaLang.Command.parse arguments with
  | .help => do
    IO.print AwaLang.Command.usageText
    return 0
  | .version => do
    IO.print AwaLang.Command.versionText
    return 0
  | .rejected => do
    IO.eprint AwaLang.Command.usageText
    return 2
  | .invoke invocation => AwaLang.Command.invoke invocation
