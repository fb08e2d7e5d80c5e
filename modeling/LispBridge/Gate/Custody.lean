import LispBridge.Gate.Basic

/-!
What is owned of a gate, by any number of participants, and in any order of their steps.

Whoever draws a ticket owns it until it drops it. Admission marks the ticket and yields a guard,
which is owned and dropped apart from it. A ticket that was not admitted leaves the queue when it is
dropped, a guard gives the gate back, and a ticket that was admitted has nothing left to give back.

* `Handle`: a ticket or a guard that somebody owns.
* `Custody.step`: what each step does, `none` where it cannot happen.
-/

namespace LispBridge

/-- Something that somebody owns of a gate. -/
inductive Handle where
  /-- A ticket, which knows whether it was admitted. -/
  | ticket (t : Ticket) (isAdmitted : Bool)
  /-- The guard of an admitted ticket. -/
  | guard (t : Ticket)
deriving DecidableEq, Repr

/-- Something that came about at a gate. -/
inductive GateEvent where
  | drawn (t : Ticket)
  | admitted (t : Ticket)
  | released (t : Ticket)
  | abandoned (t : Ticket)
deriving DecidableEq, Repr

namespace Handle

/-- What a handle is worth at the gate. -/
def place : Handle → Place
  | ticket t false => .queued t
  | ticket _ true => .none
  | guard t => .holding t

/-- The ticket that a handle is, or was yielded for. -/
def number : Handle → Ticket
  | ticket t _ | guard t => t

/-- What comes about when a handle is dropped. -/
def parting : Handle → List GateEvent
  | ticket t false => [.abandoned t]
  | ticket _ true => []
  | guard t => [.released t]

/-- Whether dropping a handle leaves the gate as it is. -/
def isSpent : Handle → Bool
  | ticket _ true => true
  | ticket _ false | guard _ => false

/-- The ticket whose guard a handle is. -/
def guard? : Handle → Option Ticket
  | guard t => some t
  | ticket .. => none

end Handle

/-- A gate with all that is owned of it. -/
structure Custody where
  gate : Gate := {}
  handles : List Handle := []
  /-- Everything that came about at the gate, in order. -/
  log : List GateEvent := []
deriving DecidableEq, Repr

namespace Custody

/-- A step of a participant. -/
inductive Label where
  /-- A ticket is drawn. -/
  | draw
  /-- Whoever waits with a ticket tries to be admitted. -/
  | attempt (t : Ticket)
  /-- A ticket or a guard is dropped: it is given up, or its owner is cancelled, ends, or has waited
  for too long. -/
  | drop (h : Handle)
deriving DecidableEq, Repr

/-- What a step does, if it can happen. -/
def step (c : Custody) : Label → Option Custody
  | .draw =>
    let (t, gate) := c.gate.draw
    some { gate, handles := c.handles ++ [.ticket t false], log := c.log ++ [.drawn t] }
  | .attempt t =>
    if .ticket t false ∈ c.handles then
      match c.gate.enter? t with
      | some gate =>
        some { gate
               handles := c.handles.erase (.ticket t false) ++ [.ticket t true, .guard t]
               log := c.log ++ [.admitted t] }
      | none => some c
    else none
  | .drop h =>
    if h ∈ c.handles then
      some { gate := h.place.leave c.gate
             handles := c.handles.erase h
             log := c.log ++ h.parting }
    else none

/-- What a sequence of steps does, if each can happen in its turn. -/
def run (c : Custody) : List Label → Option Custody
  | [] => some c
  | l :: ls => do (← c.step l).run ls

/-- The guards that are out. -/
def guards (c : Custody) : List Ticket :=
  c.handles.filterMap Handle.guard?

/-- The tickets that were admitted, in the order of admission. -/
def admitted (c : Custody) : List Ticket :=
  c.log.filterMap fun
    | .admitted t => some t
    | _ => none

/-- The tickets whose guards gave the gate back, in that order. -/
def released (c : Custody) : List Ticket :=
  c.log.filterMap fun
    | .released t => some t
    | _ => none

/-- The tickets that were given up before admission, in that order. -/
def abandoned (c : Custody) : List Ticket :=
  c.log.filterMap fun
    | .abandoned t => some t
    | _ => none

end Custody

end LispBridge
