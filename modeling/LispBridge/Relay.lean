/-!
The relay: output of the interpreter on its way to the editor, first in first out.

* `Relay.print`: the interpreter adds a chunk.
* `Relay.flush`: every chunk is taken, to be forwarded or dropped.
* `Relay.drive`: work is done while its output is forwarded.
-/

namespace LispBridge

/-- A piece of output. -/
structure Chunk where
  text : String
  isResult : Bool := false
deriving DecidableEq, Repr

/-- The output that has not been taken yet. -/
structure Relay where
  queue : List Chunk := []
  /-- Whether the interpreter can still add to it. -/
  isOpen : Bool := true
deriving DecidableEq, Repr

namespace Relay

/-- Adds a chunk; after the relay was closed it vanishes. -/
def print (r : Relay) (c : Chunk) : Relay :=
  if r.isOpen then { r with queue := r.queue ++ [c] } else r

/-- Adds chunks in their order. -/
def printAll (r : Relay) (cs : List Chunk) : Relay :=
  cs.foldl print r

/-- Ends the interpreter's output; what is queued stays. -/
def close (r : Relay) : Relay :=
  { r with isOpen := false }

/-- Takes every chunk. -/
def flush (r : Relay) : List Chunk × Relay :=
  (r.queue, { r with queue := [] })

/-- Takes the first chunk. -/
def next? (r : Relay) : Option (Chunk × Relay) :=
  match r.queue with
  | [] => none
  | c :: cs => some (c, { r with queue := cs })

/-! ### Work that produces output -/

/-- A step of some work. -/
inductive Work where
  | print (c : Chunk)
  /-- The work waits, so that what it printed can be taken. -/
  | pause
deriving DecidableEq, Repr

/-- Does some work while its output is forwarded: first what was queued before, then what it
printed whenever it waits, at last what is left. The chunks are those forwarded, in order. -/
def drive (r : Relay) : List Work → List Chunk × Relay
  | [] => r.flush
  | .print c :: work =>
    let (before, r) := r.flush
    let (after, r) := (r.print c).drive work
    (before ++ after, r)
  | .pause :: work =>
    let (before, r) := r.flush
    let (after, r) := r.drive work
    (before ++ after, r)

end Relay

end LispBridge
