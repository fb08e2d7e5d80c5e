import LispBridge.Session.Basic

/-!
Programs: what a request does, as data.

A program is a tree of steps (`Op`), each followed by a program that depends on its result. Some
steps are done at once; at the others (`Op.isAwait`) the task may have to wait, and other tasks may
run before it goes on. A task that is suspended is the program it has yet to run.
-/

namespace LispBridge

/-- A step of a program. -/
inductive Op where
  /-- Waits for the task's first turn. -/
  | turn
  /-- Queues a message for the editor. -/
  | emit (r : Response)
  | close
  | clock
  /-- Gives back what the task has of the gate. -/
  | releaseGate
  /-- Waits for the gate, with the ticket that the task has, if it has one. -/
  | lockGate
  /-- Waits for the gate for at most so many milliseconds; tells whether it came. -/
  | lockGateWithin (limit : Nat)
  /-- Waits for the right to take output from the relay. -/
  | lockRelay
  | unlockRelay
  /-- Forwards the output in the relay to the editor. -/
  | flush
  /-- Drops the output in the relay. -/
  | discard
  /-- Asks something of the interpreter; a task that relays forwards output meanwhile. -/
  | call (c : Call) (relaying : Bool)
  | depth
  | enter (l : Level)
  /-- Leaves a debugger level by the restart at an index. -/
  | resolve (number index : Nat)
  | setPackage (p : Package)
deriving DecidableEq, Repr

namespace Op

/-- What a step yields. -/
@[reducible] def Result : Op → Type
  | clock | depth | flush | discard => Nat
  | lockGateWithin _ => Bool
  | call c _ => c.Answer
  | resolve .. => Option Resolution
  | turn | emit _ | close | releaseGate | lockGate | lockRelay | unlockRelay | enter _
  | setPackage _ => Unit

/-- Whether other tasks may run before a step is done. -/
def isAwait : Op → Bool
  | turn | lockGate | lockGateWithin _ | lockRelay | call .. | depth | enter _ | resolve ..
  | setPackage _ => true
  | emit _ | close | clock | releaseGate | unlockRelay | flush | discard => false

end Op

/-- Steps, and what comes of them. -/
inductive Program (α : Type) where
  | done (value : α)
  | step (op : Op) (next : op.Result → Program α)

namespace Program

/-- Runs a program after another. -/
def bind {α β : Type} (p : Program α) (f : α → Program β) : Program β :=
  match p with
  | done value => f value
  | step op next => step op fun r => (next r).bind f

instance : Monad Program where
  pure := done
  bind := bind

def perform (op : Op) : Program op.Result :=
  step op done

def event (e : Event) : Program Unit :=
  perform (.emit (.event e))

/-- Queues a result. -/
def finish (verdict : Verdict) (id : RequestId) : Program Unit :=
  perform (.emit (.result verdict id))

/-- Queues messages. -/
def emitAll : List Response → Program Unit
  | [] => pure ()
  | r :: rs => do
    perform (.emit r)
    emitAll rs

/-- Asks something of the interpreter. -/
def ask (c : Call) : Program c.Answer :=
  perform (.call c false)

/-- Asks something of the interpreter and forwards its output meanwhile: first what was queued
before, at last what is left. -/
def drive (c : Call) : Program c.Answer := do
  perform .lockRelay
  let _ ← perform .flush
  let answer ← perform (.call c true)
  let _ ← perform .flush
  perform .unlockRelay
  return answer

/-- Drops the output that nobody has taken. -/
def discardOutput : Program Nat := do
  perform .lockRelay
  let n ← perform .discard
  perform .unlockRelay
  return n

/-- Forwards the output that nobody has taken. -/
def flushOutput : Program Nat := do
  perform .lockRelay
  let n ← perform .flush
  perform .unlockRelay
  return n

end Program

/-- A program that may fail. -/
abbrev Action (α : Type) : Type :=
  ExceptT Failure Program α

namespace Action

/-- A program that fails if its answer is a failure. -/
def ofAnswer {α : Type} (p : Program (Except Failure α)) : Action α :=
  ExceptT.mk p

/-- A value or failure that is known at once. -/
def ofExcept {α : Type} (e : Except Failure α) : Action α :=
  ofAnswer (pure e)

/-- Asks something of the interpreter; its failure is that of the action. -/
def ask (c : Call) : Action c.Yield :=
  ofAnswer (Program.ask c)

/-- Runs an action whose failure does not matter to the caller. -/
def attempt {α : Type} (a : Action α) : Action (Except Failure α) :=
  ExceptT.lift a.run

end Action

end LispBridge
