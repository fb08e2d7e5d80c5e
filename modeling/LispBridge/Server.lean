import LispBridge.Config.Document

/-!
The server: it listens, and serves one editor at a time.

* `Server.step`: what each event does to the server.
* `Server.open?`: how the server starts to listen and publishes its port.
-/

namespace LispBridge

/-- What a server does. -/
inductive Server.State where
  | listening
  /-- It serves one, and perhaps was told to stop after that. -/
  | serving (isStopping : Bool)
  | finished
deriving DecidableEq, Repr

/-- A server. -/
structure Server where
  /-- Whether more editors are served after the first. -/
  staysOpen : Bool := false
  state : Server.State := .listening
deriving DecidableEq, Repr

/-- Where a server listens, and where it makes that known. -/
structure Network where
  /-- The port that an address is bound to, or why it is not. -/
  bind : String → Except String UInt16
  publish : String → UInt16 → Except FileFault Unit

namespace Server

/-- An event of a server. -/
inductive Label where
  | connect
  /-- The connection is over; the editor may have asked the server to quit. -/
  | disconnect (quit : Bool)
  /-- The server is told to stop. The connection under way is cancelled. -/
  | stop
deriving DecidableEq, Repr

/-- What an event does, if it can happen. -/
def step (s : Server) : Label → Option Server
  | .connect =>
    match s.state with
    | .listening => some { s with state := .serving false }
    | _ => none
  | .disconnect quit =>
    match s.state with
    | .serving isStopping =>
      let isOver := quit || isStopping || !s.staysOpen
      some { s with state := if isOver then .finished else .listening }
    | _ => none
  | .stop =>
    match s.state with
    | .listening | .finished => some { s with state := .finished }
    | .serving _ => some { s with state := .serving true }

/-- What a sequence of events does, if each can happen in its turn. -/
def run (s : Server) : List Label → Option Server
  | [] => some s
  | l :: ls => do (← s.step l).run ls

def portFileFailure (path : String) (fault : FileFault) : Failure :=
  .io s!"failed to write port file {path}: {fault.message}"

/-- Makes a port known in a file. -/
def publish (network : Network) (path : String) (port : UInt16) : Except Failure Unit :=
  (network.publish path port).mapError (portFileFailure path)

/-- A server that listens, with its port made known. -/
def open? (network : Network) (c : ServerConfig) : Except Failure Server := do
  let address := s!"{c.host}:{c.port}"
  let port ← (network.bind address).mapError fun reason =>
    .io s!"failed to bind {address}: {reason}"
  match c.portFile with
  | some path => publish network path port
  | none => pure ()
  return { staysOpen := c.staysOpen }

end Server

end LispBridge
