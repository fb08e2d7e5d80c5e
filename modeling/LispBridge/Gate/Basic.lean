/-!
The gate: a first-come first-served lock on the interpreter.

A participant draws a ticket, waits until the ticket is first in the queue and the gate is free,
and holds the gate until it releases it. A ticket that is given up leaves the queue.

* `Gate.draw`, `Gate.enter?`, `Gate.release`, `Gate.abandon`: the four steps.
* `Place`: what one participant has of the gate.
-/

namespace LispBridge

/-- A place in the queue of a gate. Tickets are numbered in the order in which they are drawn. -/
abbrev Ticket := Nat

/-- The state of a gate. -/
structure Gate where
  next : Ticket := 0
  /-- The tickets that wait, in the order of admission. -/
  queue : List Ticket := []
  holder : Option Ticket := none
  acquired : Nat := 0
  released : Nat := 0
deriving DecidableEq, Repr

namespace Gate

def draw (g : Gate) : Ticket × Gate :=
  (g.next, { g with next := g.next + 1, queue := g.queue ++ [g.next] })

/-- Admits a ticket if the gate is free and the ticket is first in the queue. -/
def enter? (g : Gate) (t : Ticket) : Option Gate :=
  match g.holder, g.queue with
  | none, front :: rest =>
    if front = t then
      some { g with queue := rest, holder := some t, acquired := g.acquired + 1 }
    else none
  | _, _ => none

def release (g : Gate) (t : Ticket) : Gate :=
  if g.holder = some t then { g with holder := none, released := g.released + 1 } else g

/-- Takes a ticket out of the queue. -/
def abandon (g : Gate) (t : Ticket) : Gate :=
  { g with queue := g.queue.filter (· ≠ t) }

def isHeld (g : Gate) : Bool :=
  g.holder.isSome

end Gate

/-- What a participant has of a gate. -/
inductive Place where
  | none
  | queued (t : Ticket)
  /-- The gate, by an admitted ticket. -/
  | holding (t : Ticket)
deriving DecidableEq, Repr

/-- Gives back to the gate what a participant has of it. -/
def Place.leave (p : Place) (g : Gate) : Gate :=
  match p with
  | .none => g
  | .queued t => g.abandon t
  | .holding t => g.release t

end LispBridge
