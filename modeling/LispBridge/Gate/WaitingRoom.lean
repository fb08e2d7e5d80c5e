import LispBridge.Gate.Custody

/-!
Waiting for a gate without watching it all the time.

A waiter asks to be told of changes, tries to enter, and sleeps until it is told. A change of the
gate is made first and announced later; an announcement tells everybody who has asked by then. Any
order of these steps is possible.

* `WaitingRoom.step`: what each step does, `none` where it cannot happen.
-/

namespace LispBridge

/-- How far a waiter is in its loop. -/
inductive WaiterStage where
  /-- It has yet to ask to be told of changes. -/
  | ready
  /-- It has asked, and has yet to try. -/
  | listening (told : Bool)
  /-- It has tried in vain, and is about to sleep unless it was told of a change since it asked. -/
  | refused (told : Bool)
  /-- It sleeps, and was not told of a change since it asked. -/
  | asleep
deriving DecidableEq, Repr

/-- A gate and those who wait for it. -/
structure WaitingRoom where
  custody : Custody := {}
  /-- Who waits, by ticket. -/
  waiters : List (Ticket × WaiterStage) := []
  /-- How many changes have been made and not announced. -/
  unannounced : Nat := 0
deriving DecidableEq, Repr

namespace WaitingRoom

/-- A step of a waiter or of a change. -/
inductive Label where
  /-- A ticket is drawn, and kept. -/
  | draw
  /-- Somebody begins to wait with a kept ticket. -/
  | wait (t : Ticket)
  /-- A waiter asks to be told of changes. -/
  | listen (t : Ticket)
  /-- A waiter tries to enter. -/
  | attempt (t : Ticket)
  /-- A waiter that was refused goes to sleep, or on to its next try if it was told of a change. -/
  | rest (t : Ticket)
  /-- A ticket, waited with or not, or a guard is dropped. -/
  | drop (h : Handle)
  | announce
deriving DecidableEq, Repr

def gate (r : WaitingRoom) : Gate :=
  r.custody.gate

def stage? (r : WaitingRoom) (t : Ticket) : Option WaiterStage :=
  r.waiters.lookup t

def setStage (r : WaitingRoom) (t : Ticket) (s : WaiterStage) : WaitingRoom :=
  { r with waiters := r.waiters.map fun w => if w.1 = t then (t, s) else w }

/-- Takes the waiter with a ticket out of the room. -/
def remove (r : WaitingRoom) (t : Ticket) : WaitingRoom :=
  { r with waiters := r.waiters.filter (·.1 ≠ t) }

/-- A waiter after an announcement. -/
def tell : WaiterStage → WaiterStage
  | .ready | .asleep => .ready
  | .listening _ => .listening true
  | .refused _ => .refused true

/-- What a step does, if it can happen. -/
def step (r : WaitingRoom) : Label → Option WaitingRoom
  | .draw => (r.custody.step .draw).map fun custody => { r with custody }
  | .wait t =>
    if .ticket t false ∈ r.custody.handles ∧ r.stage? t = none then
      some { r with waiters := r.waiters ++ [(t, .ready)] }
    else none
  | .listen t => if r.stage? t = some .ready then some (r.setStage t (.listening false)) else none
  | .attempt t =>
    match r.stage? t with
    | some (.listening told) => do
      let custody ← r.custody.step (.attempt t)
      return if (r.gate.enter? t).isSome then { r.remove t with custody }
        else r.setStage t (.refused told)
    | _ => none
  | .rest t =>
    match r.stage? t with
    | some (.refused told) => some (r.setStage t (if told then .ready else .asleep))
    | _ => none
  | .drop h =>
    (r.custody.step (.drop h)).map fun custody =>
      { r.remove h.number with
        custody
        unannounced := if h.isSpent then r.unannounced else r.unannounced + 1 }
  | .announce =>
    match r.unannounced with
    | 0 => none
    | n + 1 =>
      some { r with waiters := r.waiters.map fun w => (w.1, tell w.2), unannounced := n }

/-- What a sequence of steps does, if each can happen in its turn. -/
def run (r : WaitingRoom) : List Label → Option WaitingRoom
  | [] => some r
  | l :: ls => do (← r.step l).run ls

end WaitingRoom

end LispBridge
