import LispBridge.Message.Inbound

/-!
Messages to the editor: events, of which a request may cause any number, and the one result that
ends it.
-/

namespace LispBridge

/-- What happens while requests are served. Debugger levels count from one. -/
inductive Event where
  | readString
  | readAborted
  /-- Output, or the printed result of an evaluation. -/
  | writeString (text : String) (isResult : Bool)
  | newPackage (name prompt : String)
  /-- A debugger level opens; the result of request `id` waits for it. -/
  | debug (level : Nat) (message : String) (restarts : List (String × String))
      (frames : List String) (id : RequestId)
  | debugActivate (level : Nat)
  | debugReturn (level : Nat)
deriving DecidableEq, Repr

/-- How a request ended. -/
inductive Verdict where
  | ok (value : Datum)
  | abort (message : Option String)
  /-- It failed before it reached the interpreter. -/
  | error (message : String)
deriving DecidableEq, Repr

/-- A message to the editor. -/
inductive Response where
  | event (e : Event)
  | result (verdict : Verdict) (id : RequestId)
deriving DecidableEq, Repr

/-- Whether a message ends a request. -/
def Response.isFinal : Response → Bool
  | .event _ => false
  | .result .. => true

/-! ### As data -/

/-- The thread that events are about. -/
def sessionThread : Datum := .int 0

def readTag : Datum := .int 1

/-- Stack frames with their numbers, counted from `start`. -/
def framesDatum (frames : List String) (start : Nat) : Datum :=
  .ofItems (frames.mapIdx fun i frame => .list [.ofCount (start + i), .str frame])

/-- Stack frames with their numbers, if the last number is one of 64 bits. -/
def framesDatum? (frames : List String) (start : Nat) : Option Datum :=
  if start + frames.length ≤ UInt64.size then some (framesDatum frames start) else none

def Event.datum : Event → Datum
  | .readString => .list [.keyword "read-string", sessionThread, readTag]
  | .readAborted => .list [.keyword "read-aborted", sessionThread, readTag]
  | .writeString text isResult =>
    .list (.keyword "write-string" :: .str text ::
      if isResult then [.keyword "repl-result"] else [])
  | .newPackage name prompt => .list [.keyword "new-package", .str name, .str prompt]
  | .debug level message restarts frames id =>
    .list [.keyword "debug", sessionThread, .ofCount level,
      .list [.str message, .str "", .nil],
      .ofItems (restarts.map fun (name, description) => .list [.str name, .str description]),
      framesDatum frames 0,
      .list [.int id]]
  | .debugActivate level => .list [.keyword "debug-activate", sessionThread, .ofCount level, .nil]
  | .debugReturn level => .list [.keyword "debug-return", sessionThread, .ofCount level, .nil]

/-- The data of a verdict. The editor knows two statuses only, so an error is an abort. -/
def Verdict.datum : Verdict → Datum
  | .ok value => .list [.keyword "ok", value]
  | .abort message => .list [.keyword "abort", .ofText? message]
  | .error message => .list [.keyword "abort", .str message]

/-- The data of a message. -/
def Response.datum : Response → Datum
  | .event e => e.datum
  | .result verdict id => .list [.keyword "return", verdict.datum, .int id]

def Response.payload (r : Response) : String :=
  r.datum.wire

end LispBridge
