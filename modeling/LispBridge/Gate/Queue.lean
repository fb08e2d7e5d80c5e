import LispBridge.Gate.Basic

/-!
Named participants at a gate, on a clock that is moved by hand.

A participant may keep a ticket, wait with one (perhaps until a deadline), or hold the gate. After
every step of the scenario whoever can be admitted is admitted.
-/

namespace LispBridge

/-- A participant that waits for admission. -/
structure Waiter where
  name : String
  ticket : Ticket
  deadline : Option Nat
deriving DecidableEq, Repr

/-- A gate with its participants. -/
structure GateQueue where
  gate : Gate := {}
  /-- Milliseconds since the start. -/
  now : Nat := 0
  /-- Tickets that nobody waits with yet. -/
  kept : List (String × Ticket) := []
  /-- Participants that wait, in the order in which they began to. -/
  waiting : List Waiter := []
  /-- Participants that hold the gate. -/
  guards : List (String × Ticket) := []
deriving DecidableEq, Repr

/-- What a participant hears about its waiting. -/
inductive GateNotice where
  | admitted (name : String)
  | timedOut (name : String)
deriving DecidableEq, Repr

/-- A step of a scenario. -/
inductive GateStep where
  | draw (name : String)
  | wait (name : String)
  /-- Draws a ticket and waits with it, at most for some milliseconds if a limit is given. -/
  | acquire (name : String) (limit : Option Nat)
  | release (name : String)
  /-- Gives up the kept ticket. -/
  | drop (name : String)
  | cancel (name : String)
  | advance (milliseconds : Nat)
deriving DecidableEq, Repr

namespace GateQueue

/-- Takes what belongs to a name out of a list. -/
def claim? (name : String) (entries : List (String × Ticket)) :
    Option (Ticket × List (String × Ticket)) :=
  match entries.find? (·.1 = name) with
  | some (_, t) => some (t, entries.filter (·.1 ≠ name))
  | none => none

/-- Admits the waiter whose turn it is, if there is one. There is at most one, since admission
closes the gate. -/
def letIn (q : GateQueue) : List GateNotice × GateQueue :=
  match q.waiting.findSome? fun w => (q.gate.enter? w.ticket).map (w, ·) with
  | none => ([], q)
  | some (w, gate) =>
    ([.admitted w.name],
      { q with
        gate
        waiting := q.waiting.filter (·.ticket ≠ w.ticket)
        guards := (w.name, w.ticket) :: q.guards })

/-- Whether a waiter's deadline has passed. -/
def isDue (now : Nat) (w : Waiter) : Bool :=
  w.deadline.any (· ≤ now)

/-- The waiters whose deadline has passed, the earliest deadline first. -/
def due (q : GateQueue) : List Waiter :=
  (q.waiting.filter (isDue q.now)).mergeSort fun a b => a.deadline.getD 0 ≤ b.deadline.getD 0

/-- Gives up the waiters whose deadline has passed. -/
def expire (q : GateQueue) : List GateNotice × GateQueue :=
  (q.due.map (.timedOut ·.name),
    { q with
      gate := q.due.foldl (fun g w => g.abandon w.ticket) q.gate
      waiting := q.waiting.filter fun w => !isDue q.now w })

/-- Does one step of a scenario, before anybody reacts to it. -/
def act (q : GateQueue) : GateStep → GateQueue
  | .draw name =>
    let (t, gate) := q.gate.draw
    { q with gate, kept := (name, t) :: q.kept }
  | .wait name =>
    match claim? name q.kept with
    | some (t, kept) => { q with kept, waiting := q.waiting ++ [⟨name, t, none⟩] }
    | none => q
  | .acquire name limit =>
    let (t, gate) := q.gate.draw
    { q with gate, waiting := q.waiting ++ [⟨name, t, limit.map (q.now + ·)⟩] }
  | .release name =>
    match claim? name q.guards with
    | some (t, guards) => { q with gate := q.gate.release t, guards }
    | none => q
  | .drop name =>
    match claim? name q.kept with
    | some (t, kept) => { q with gate := q.gate.abandon t, kept }
    | none => q
  | .cancel name =>
    match q.waiting.find? (·.name = name) with
    | some w =>
      { q with
        gate := q.gate.abandon w.ticket, waiting := q.waiting.filter (·.ticket ≠ w.ticket) }
    | none => q
  | .advance milliseconds => { q with now := q.now + milliseconds }

/-- Does one step of a scenario and lets the participants react: whoever can be admitted is, and
whoever has waited too long gives up. -/
def step (q : GateQueue) (s : GateStep) : List GateNotice × GateQueue :=
  let (admitted, q) := (q.act s).letIn
  let (expired, q) := q.expire
  let (later, q) := q.letIn
  (admitted ++ expired ++ later, q)

end GateQueue

end LispBridge
