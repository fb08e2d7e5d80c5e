import LispBridge.Session.Request

/-!
A session with its tasks, as a transition system.

A task runs from the step at which it waits to the next one without interruption; between two such
runs any other task may run. `System.step` says what each event (`Label`) does, and is `none` where
the event cannot happen. Nothing is assumed about the order of events, about the interpreter's
answers, or about when tasks are cancelled.

* `Session.arrive`: what a task does on arriving at a step where it may have to wait.
* `Session.perform`: a step done, if it can be done now.
* `Session.settle`: a run of a task.
* `System.deliver`: what a payload sets off.
-/

namespace LispBridge

/-- The number of a task. -/
abbrev TaskId := Nat

/-- A task: the program that it has yet to run, and what it has of the gate. -/
structure Task where
  id : TaskId
  place : Place := .none
  /-- When it gives up waiting for the gate. -/
  deadline : Option Nat := none
  program : Program Unit

namespace Session

/-! ### Steps -/

/-- What a task does on arriving at a step where it may have to wait: it queues up, or it asks. -/
def arrive (s : Session) (t : Task) : Op → Session × Task
  | .lockGate | .lockGateWithin _ =>
    match t.place with
    | .none =>
      let (ticket, gate) := s.gate.draw
      ({ s with gate }, { t with place := .queued ticket })
    | .queued _ | .holding _ => (s, t)
  | .lockRelay => ({ s with relayLock := s.relayLock.join t.id }, t)
  | .call c _ => (s.ask (.call c), t)
  | _ => (s, t)

/-- The deadline that a step sets. -/
def deadlineOf (s : Session) : Op → Option Nat
  | .lockGateWithin limit => some (s.clock + limit)
  | _ => none

/-- Admits a task to the gate, if it is its turn. -/
def enterGate? (s : Session) (t : Task) : Option (Session × Task) :=
  match t.place with
  | .none => none
  | .holding _ => some (s, t)
  | .queued ticket =>
    (s.gate.enter? ticket).map fun gate => ({ s with gate }, { t with place := .holding ticket })

/-- Forwards the output in the relay. -/
def flush (s : Session) : Session :=
  let (chunks, relay) := s.relay.flush
  { s.sendAll (chunks.map Chunk.response) with relay }

/-- Enters a debugger level and announces it. -/
def enter (s : Session) (l : Level) : Session :=
  let number := s.debugger.depth + 1
  { s.sendAll [.event (l.debugEvent number), .event (.debugActivate number)] with
    debugger := s.debugger.push l }

/-- Does a step if it can be done now. A call is never done here: the interpreter answers it. -/
def perform (s : Session) (t : Task) : (op : Op) → Option (op.Result × Session × Task)
  | .turn => some ((), s, t)
  | .emit r => some ((), s.send r, t)
  | .close => some ((), { s with closed := true }, t)
  | .clock => some (s.clock, s, t)
  | .releaseGate => some ((), { s with gate := t.place.leave s.gate }, { t with place := .none })
  | .lockGate => (s.enterGate? t).map fun (s, t) => ((), s, t)
  | .lockGateWithin _ => (s.enterGate? t).map fun (s, t) => (true, s, t)
  | .lockRelay => if s.relayLock.holder = some t.id then some ((), s, t) else none
  | .unlockRelay => some ((), { s with relayLock := s.relayLock.leave t.id }, t)
  | .flush => some (s.relay.queue.length, s.flush, t)
  | .discard => some (s.relay.queue.length, { s with relay := s.relay.flush.2 }, t)
  | .call .. => none
  | .depth => some (s.debugger.depth, s, t)
  | .enter l => some ((), s.enter l, t)
  | .resolve number index =>
    match s.debugger.resolve number index with
    | some (r, debugger) => some (some r, { s with debugger }, t)
    | none => some (none, s, t)
  | .setPackage p => some ((), { s with package := p }, t)

/-- Gives back all that a task has or waits for. -/
def leave (s : Session) (t : Task) : Session :=
  { s with gate := t.place.leave s.gate, relayLock := s.relayLock.leave t.id }

/-- Runs a task up to the next step where it may have to wait, or to its end. -/
def settle (s : Session) (t : Task) : Program Unit → Session × Option Task
  | .done () => (s.leave t, none)
  | .step op next =>
    if op.isAwait then
      let (s', t) := s.arrive t op
      (s', some { t with deadline := s.deadlineOf op, program := .step op next })
    else
      match s.perform t op with
      | some (r, s, t) => s.settle t (next r)
      | none => (s, some { t with program := .step op next })

/-- Lets a task go on if the step at which it waits can be done. -/
def resume (s : Session) (t : Task) : Option (Session × Option Task) :=
  match t.program with
  | .done () => none
  | .step op next =>
    match s.perform t op with
    | some (r, s, t) => some (s.settle t (next r))
    | none => none

/-- Lets a task go on with the interpreter's answer, if it waits for that call. -/
def answer (s : Session) (t : Task) (c : Call) (a : c.Answer) : Option (Session × Option Task) :=
  match t.program with
  | .step (.call c' _) next =>
    if h : c = c' then some (s.settle t (next (h ▸ a))) else none
  | _ => none

/-- Lets a task that relays forward the first chunk of output. -/
def forward (s : Session) (t : Task) : Option Session :=
  match t.program with
  | .step (.call _ true) _ =>
    s.relay.next?.map fun (chunk, relay) => { s.send chunk.response with relay }
  | _ => none

/-- Lets a task go on that has waited for the gate until its deadline. -/
def expire (s : Session) (t : Task) : Option (Session × Option Task) :=
  match t.program, t.deadline with
  | .step (.lockGateWithin _) next, some deadline =>
    if deadline ≤ s.clock then
      some ({ s with gate := t.place.leave s.gate }.settle { t with place := .none } (next false))
    else none
  | _, _ => none

end Session

/-! ### The system -/

/-- A session with its unfinished tasks. -/
structure System where
  session : Session
  tasks : List Task := []
  nextTask : TaskId := 0
  /-- Whether messages are still taken from the editor. -/
  isReading : Bool := true

namespace System

/-- A session before its first message. -/
def new (settings : Settings) (host : Host := {}) : System :=
  { session := .new settings host }

def task? (sys : System) (id : TaskId) : Option Task :=
  sys.tasks.find? (·.id = id)

/-- A task after a run: it waits for something else, or it is gone. -/
def update (sys : System) (id : TaskId) (result : Session × Option Task) : System :=
  { sys with
    session := result.1
    tasks :=
      match result.2 with
      | some t => sys.tasks.map fun u => if u.id = id then t else u
      | none => sys.tasks.filter (·.id ≠ id) }

/-- Adds a task that waits for its first turn. -/
def spawn (sys : System) (program : Program Unit) (place : Place := .none) : System :=
  { sys with
    tasks := sys.tasks ++ [{ id := sys.nextTask, place, program }]
    nextTask := sys.nextTask + 1 }

/-- What a payload sets off. The ticket of a request that needs the gate is drawn here, so that
requests are admitted in the order in which they came. -/
def deliver (sys : System) (payload : String) : System :=
  let s := sys.session
  match Delivery.ofPayload payload with
  | .serve command r =>
    let program := Program.serve s.settings s.host command r
    if command.needsGate then
      let (ticket, gate) := s.gate.draw
      { sys with session := { s with gate } }.spawn program (.queued ticket)
    else sys.spawn program
  | .interrupt refreshes =>
    let sys := { sys with session := s.ask .interrupt }
    if refreshes then sys.spawn (.refreshAfterInterrupt s.settings) else sys
  | .input text => sys.spawn (.deliverInput text)
  | .refuse id reason => { sys with session := s.send (.result (.error reason) id) }
  | .ignore => sys
  | .crash => { sys with isReading := false }

def cancel (sys : System) (t : Task) : System :=
  sys.update t.id (sys.session.leave t, none)

/-- Cancels every task. -/
def cancelAll (sys : System) : System :=
  sys.tasks.foldl cancel sys

/-- An event of a session. -/
inductive Label where
  | deliver (payload : String)
  | print (c : Chunk)
  /-- The interpreter's output ends. -/
  | closeOutput
  | tick (milliseconds : Nat)
  /-- A task goes on, because it need not wait any longer. -/
  | resume (id : TaskId)
  /-- A task goes on with an answer of the interpreter. -/
  | answer (id : TaskId) (c : Call) (a : c.Answer)
  | forward (id : TaskId)
  /-- A task has waited for the gate long enough. -/
  | expire (id : TaskId)
  | cancel (id : TaskId)

/-- What an event does, if it can happen. -/
def step (sys : System) : Label → Option System
  | .deliver payload => if sys.isReading then some (sys.deliver payload) else none
  | .print c => some { sys with session.relay := sys.session.relay.print c }
  | .closeOutput => some { sys with session.relay := sys.session.relay.close }
  | .tick n => some { sys with session.clock := sys.session.clock + n }
  | .resume id => do
    let t ← sys.task? id
    sys.update id <$> sys.session.resume t
  | .answer id c a => do
    let t ← sys.task? id
    sys.update id <$> sys.session.answer t c a
  | .forward id => do
    let t ← sys.task? id
    let session ← sys.session.forward t
    return { sys with session }
  | .expire id => do
    let t ← sys.task? id
    sys.update id <$> sys.session.expire t
  | .cancel id => do
    return sys.cancel (← sys.task? id)

/-- What a sequence of events does, if each can happen in its turn. -/
def run (sys : System) : List Label → Option System
  | [] => some sys
  | l :: ls => do (← sys.step l).run ls

end System

end LispBridge
