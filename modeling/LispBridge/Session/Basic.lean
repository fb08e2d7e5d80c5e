import LispBridge.Debugger
import LispBridge.Gate.Basic
import LispBridge.Interpreter.Call
import LispBridge.Lock

/-!
The state that all requests of one editor share.
-/

namespace LispBridge

/-- What can be set about a session. -/
structure Settings where
  /-- The mark at which the text of a condition is cut off. -/
  delimiter : String := ";;euslime;; "
  /-- How long, in milliseconds, an interrupt waits for the gate to refresh the prompt. -/
  promptTimeout : Nat := 2000
  /-- The version of the protocol that is reported to the editor. -/
  swankVersion : String := "2.20"
  /-- The package that is current before the interpreter names one. -/
  defaultPackage : String := "USER"
  /-- How many stack frames are fetched if the editor does not say. -/
  backtraceDepth : Nat := 100
deriving DecidableEq, Repr

/-- The machine that the server runs on, as far as it is reported to the editor. -/
structure Host where
  processId : Int64 := 0
  architecture : String := ""
deriving DecidableEq, Repr

/-- The current package and the prompt of the REPL. -/
structure Package where
  name : String
  prompt : String
deriving DecidableEq, Repr

namespace Package

/-- Reads a list that starts with the name and the prompt. -/
def ofDatum? (d : Datum) : Option Package :=
  match d.asList? with
  | some (.str name :: .str prompt :: _) => some ⟨name, prompt⟩
  | _ => none

/-- The event that tells the editor of a package. -/
def event (p : Package) : Event :=
  .newPackage p.name p.prompt

end Package

/-- What has been asked of the interpreter. -/
inductive Ask where
  | call (c : Call)
  | interrupt
deriving DecidableEq, Repr

/-- The state that the requests of one editor share. -/
structure Session where
  settings : Settings := {}
  host : Host := {}
  gate : Gate := {}
  relay : Relay := {}
  relayLock : Lock := {}
  debugger : Debugger := {}
  package : Package := ⟨settings.defaultPackage, settings.defaultPackage⟩
  /-- Whether the editor asked for the connection to be closed. -/
  closed : Bool := false
  /-- Everything that was queued for the editor, in order. -/
  outbox : List Response := []
  /-- Everything that was asked of the interpreter, in order. -/
  asked : List Ask := []
  /-- Milliseconds since the session began. -/
  clock : Nat := 0
deriving DecidableEq, Repr

namespace Session

/-- A session before its first message. -/
def new (settings : Settings) (host : Host := {}) : Session :=
  { settings, host, package := ⟨settings.defaultPackage, settings.defaultPackage⟩ }

/-- Queues a message for the editor. -/
def send (s : Session) (r : Response) : Session :=
  { s with outbox := s.outbox ++ [r] }

/-- Queues messages for the editor. -/
def sendAll (s : Session) (rs : List Response) : Session :=
  { s with outbox := s.outbox ++ rs }

/-- Notes what is asked of the interpreter. -/
def ask (s : Session) (a : Ask) : Session :=
  { s with asked := s.asked ++ [a] }

end Session

/-- A chunk of output as a message. -/
def Chunk.response (c : Chunk) : Response :=
  .event (.writeString c.text c.isResult)

end LispBridge
