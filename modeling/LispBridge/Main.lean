import LispBridge.Bench.Connection
import LispBridge.CommandLine
import LispBridge.Interpreter.Process

/-!
The program: it serves the editor at its standard input and output.

The program runs no other, so that there is no interpreter: a request that needs one fails as for
an interpreter that is not running.
-/

namespace LispBridge.StandardStreams

/-- The fault of a file that the system reports. -/
def faultOf (e : IO.Error) : FileFault :=
  match e with
  | .noFileOrDirectory .. => .missing
  | .inappropriateType _ 21 _ => .directory
  | e => ⟨toString e, none⟩

def contentOf (path : String) : IO (Except FileFault (List UInt8)) := do
  try
    return .ok (← IO.FS.readBinFile path).toList
  catch e =>
    return .error (faultOf e)

/-- An interpreter that is not running. -/
def detached : Script :=
  { otherwise := { failure := some ProcessFault.notRunning.failure } }

/-- The next bytes from the editor; none if there are no more. -/
def receive (input : IO.FS.Stream) (link : Link) : IO Connection.Label := do
  if link.isInputOver then
    IO.sleep 10
    return .endInput
  else
    let bytes ← input.read (max 1 link.missing).toUSize
    return if bytes.isEmpty then .endInput else .arrive bytes.toList

/-- Serves until the connection is closed. -/
partial def serve (input output : IO.FS.Stream) (since : Nat) (b : ConnectionBench) : IO Unit := do
  let event ← receive input b.link
  let now ← IO.monoMsNow
  let after := ((b.tick (now - since)).happen event).settle
  for f in after.link.sink.frames.drop b.link.sink.frames.length do
    output.putStr f.text
  output.flush
  match after.link.phase with
  | .closed _ => return ()
  | _ => serve input output now after

end LispBridge.StandardStreams

open LispBridge StandardStreams

/-- Runs the program. -/
def main (arguments : List String) : IO UInt32 := do
  let content ←
    match Invocation.ofArguments arguments with
    | .ok (.run { configFile := some path, .. }) => contentOf path
    | _ => pure (.error .missing)
  let exit ←
    match Invocation.prepare arguments fun _ => content with
    | .error exit => pure exit
    | .ok c => do
      let bench := Bench.new c.settings {} detached
      serve (← IO.getStdin) (← IO.getStdout) (← IO.monoMsNow) { bench, link.grace := c.server.grace }
      pure Exit.served
  IO.print exit.output
  match exit.report? with
  | some report => IO.eprintln report
  | none => pure ()
  return exit.exitCode.toUInt32
