import AwaLang.Host.Buffer
import AwaLang.Interpreter

namespace AwaLang.Batch

structure Request where
  submission : Except Assembly.Fault Submission
  rewind : Bool

inductive Answer
  | refused (fault : Assembly.Fault)
  | ran (report : Report) (output : String) (steps depth : Nat)
  deriving DecidableEq, Repr

def serve (i : Interpreter Buffer) (request : Request) : Answer × Interpreter Buffer :=
  let i := if request.rewind then { i with host := i.host.rewind } else i
  match request.submission with
  | .error fault => (.refused fault, i)
  | .ok submission =>
    let (report, i) := i.run submission
    (.ran report i.host.output i.steps i.abyss.size, { i with host := i.host.forgetWrites })

def serveAll (i : Interpreter Buffer) : List Request → List Answer × Interpreter Buffer
  | [] => ([], i)
  | request :: rest =>
    let (answer, i) := serve i request
    let (answers, i) := serveAll i rest
    (answer :: answers, i)

end AwaLang.Batch
