import LispBridge.Bench.Script
import LispBridge.Session.System

/-!
A session on a test bench: the interpreter is scripted, the clock is moved by hand, and after every
step of the scenario the tasks run until each waits for something.

Of all orders in which the tasks may run, the bench takes that of a queue: a task that need not
wait any longer is queued up, and the first in the queue runs until it has to wait again. Every
step of a task is an event of the transition system.

* `Bench.advance`: one event of the first task in the queue.
* `Bench.settle`: events until no task can go on.
* `Bench.perform`: a program done on the spot, without a task.
-/

namespace LispBridge

/-- A call that is being played. -/
structure Pending where
  task : TaskId
  part : Part
  key : Option String
deriving DecidableEq, Repr

/-- A session on a test bench. -/
structure Bench where
  system : System
  script : Script := {}
  /-- The calls that are being played, in the order in which they began. -/
  pending : List Pending := []
  /-- The tasks that may be able to go on, in the order in which that came about. -/
  ready : List TaskId := []
  /-- The tasks that wait for the gate, in the order in which they began to. -/
  gateWaiters : List TaskId := []

namespace Bench

/-- A session before its first message. -/
def new (settings : Settings) (host : Host) (script : Script) : Bench :=
  { system := .new settings host, script }

def session (b : Bench) : Session :=
  b.system.session

/-! ### The queue -/

/-- Queues a task up, unless it is in the queue already. -/
def wake (b : Bench) (id : TaskId) : Bench :=
  if b.ready.contains id then b else { b with ready := b.ready ++ [id] }

/-- Queues up all tasks that wait for the gate. -/
def wakeGate (b : Bench) : Bench :=
  b.gateWaiters.foldl wake { b with gateWaiters := [] }

/-- Whether somebody left the gate or its queue. -/
def gateOpened (before after : Gate) : Bool :=
  after.released ≠ before.released ||
    (after.acquired = before.acquired && after.queue.length < before.queue.length)

/-- Whether an event lets the task that may take output go on: it has just come to be that task, or
there is more output. -/
def relayMoved (before after : Session) (id : TaskId) : Bool :=
  before.relayLock.holder ≠ some id || before.relay.queue.length < after.relay.queue.length

/-- Notes what an event changed: who may be able to go on now. A task that gives back both the
right to take output and the gate does so in this order. -/
def notice (b : Bench) (after : System) : Bench :=
  let before := b.session
  let b := { b with system := after }
  let b :=
    match after.session.relayLock.holder with
    | some id => if relayMoved before after.session id then b.wake id else b
    | none => b
  if gateOpened before.gate after.session.gate then b.wakeGate else b

/-- Lets an event happen, if it can. -/
def happen (b : Bench) (l : System.Label) : Bench :=
  match b.system.step l with
  | some system => b.notice system
  | none => b

/-- Lets the interpreter print. -/
def printAll (b : Bench) (chunks : List Chunk) : Bench :=
  chunks.foldl (fun b c => b.happen (.print c)) b

/-- Releases the calls that wait for a key, and queues up their tasks. -/
def unblock (b : Bench) (key : String) : Bench :=
  let (released, _) := b.pending.partition (·.key = some key)
  let pending := b.pending.map fun p => if p.key = some key then { p with key := none } else p
  released.foldl (fun b p => b.wake p.task) { b with pending }

/-! ### One task -/

/-- Takes the first task out of the queue: it has to wait. -/
def rest (b : Bench) : Bench :=
  { b with ready := b.ready.drop 1 }

/-- Takes a task out of the queue that waits for the gate. -/
def restAtGate (b : Bench) (id : TaskId) : Bench :=
  { b.rest with gateWaiters := b.gateWaiters ++ [id] }

/-- One event of a task that waits for the interpreter. -/
def advanceCall (b : Bench) (id : TaskId) (c : Call) (relaying : Bool) : Bench :=
  match b.pending.find? (·.task = id) with
  | none =>
    let (part, script) := b.script.take c
    let b := { b with script, pending := b.pending ++ [Pending.mk id part part.block] }
    b.printAll part.print
  | some ⟨_, part, none⟩ =>
    let b := { b with pending := b.pending.filter (·.task ≠ id) }
    let b := if part.block.isSome then b.printAll part.after else b
    b.happen (.answer id c (part.answer c))
  | some ⟨_, _, some _⟩ =>
    if relaying && !b.session.relay.queue.isEmpty then b.happen (.forward id) else b.rest

/-- Whether a task that waits for the gate would be admitted. -/
def mayEnter (b : Bench) (t : Task) : Bool :=
  (b.session.enterGate? t).isSome

/-- One event of a task; the task rests if there is none. -/
def advanceTask (b : Bench) (t : Task) : Bench :=
  match t.program with
  | .done () => b.rest
  | .step (.call c relaying) _ => b.advanceCall t.id c relaying
  | .step .lockGate _ => if b.mayEnter t then b.happen (.resume t.id) else b.restAtGate t.id
  | .step (.lockGateWithin _) _ =>
    if b.mayEnter t then b.happen (.resume t.id)
    else if t.deadline.any (· ≤ b.session.clock) then b.happen (.expire t.id)
    else b.restAtGate t.id
  | .step .lockRelay _ =>
    if b.session.relayLock.holder = some t.id then b.happen (.resume t.id) else b.rest
  | .step _ _ => b.happen (.resume t.id)

/-- One event of the first task in the queue. A task that is over leaves the queue. -/
def advance (b : Bench) : Bench :=
  match b.ready with
  | [] => b
  | id :: _ =>
    match b.system.task? id with
    | none => b.rest
    | some t => b.advanceTask t

/-- Events until no task can go on, at most so many. -/
def settleUpTo : Nat → Bench → Bench
  | 0, b => b
  | n + 1, b => if b.ready.isEmpty then b else settleUpTo n b.advance

/-- More events than any step of a scenario sets off. -/
def patience : Nat := 1000000

/-- Events until no task can go on. -/
def settle (b : Bench) : Bench :=
  settleUpTo patience b

/-! ### Scenarios -/

/-- Queues up the tasks that a payload added. -/
def wakeNew (b : Bench) (before : TaskId) : Bench :=
  (b.system.tasks.filter (before ≤ ·.id)).foldl (fun b t => b.wake t.id) b

/-- Plays an interrupt: one that succeeds releases the calls that wait for it. -/
def playInterrupt (b : Bench) : Bench :=
  let (part, script) := b.script.takeInterrupt
  let b := { b with script }
  if part.failure.isNone then b.unblock "int" else b

/-- Goes on after a payload was delivered: plays an interrupt that it called for, and queues up
the task that it added. -/
def welcome (b : Bench) (before : System) : Bench :=
  let asked := b.session.asked.drop before.session.asked.length
  let b := if asked.contains .interrupt then b.playInterrupt else b
  b.wakeNew before.nextTask

/-- Delivers a payload from the editor. -/
def deliver (b : Bench) (payload : String) : Bench :=
  (b.happen (.deliver payload)).welcome b.system

/-- Lets time pass, and queues up the tasks whose deadline has come, the earliest first. -/
def tick (b : Bench) (milliseconds : Nat) : Bench :=
  let b := b.happen (.tick milliseconds)
  let waiting := b.system.tasks.filter fun t => b.gateWaiters.contains t.id
  let due := waiting.filter fun t => t.deadline.any (· ≤ b.session.clock)
  let due := due.mergeSort fun t u => t.deadline.getD 0 ≤ u.deadline.getD 0
  let b := { b with gateWaiters := b.gateWaiters.filter fun id => !due.any (·.id = id) }
  due.foldl (fun b t => b.wake t.id) b

/-- Cancels every task. -/
def cancelAll (b : Bench) : Bench :=
  { b with system := b.system.cancelAll, pending := [], ready := [], gateWaiters := [] }

/-- Does a program on the spot, in the name of nobody's task. Its result is missing if it would
have to wait. -/
def perform {α : Type} (b : Bench) (t : Task) : Program α → Bench × Option α
  | .done a => (b, some a)
  | .step (.call c relaying) next =>
    let (s, t) := b.session.arrive t (.call c relaying)
    let b := b.notice { b.system with session := s }
    let (part, script) := b.script.take c
    let b := ({ b with script }).printAll part.print
    if part.block.isSome then (b, none) else b.perform t (next (part.answer c))
  | .step op next =>
    let (s, t) := if op.isAwait then b.session.arrive t op else (b.session, t)
    match s.perform t op with
    | some (r, s, t) => (b.notice { b.system with session := s }).perform t (next r)
    | none => (b.notice { b.system with session := s.leave t }, none)

def performNow {α : Type} (b : Bench) (p : Program α) : Bench × Option α :=
  let (b, a) := b.perform { id := b.system.nextTask, program := .done () } p
  ({ b with system.nextTask := b.system.nextTask + 1 }, a)

end Bench

end LispBridge
