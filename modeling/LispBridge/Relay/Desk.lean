import LispBridge.Session.Basic
import Mathlib.Logic.Function.Basic

/-!
A relay among all who use it, in any order of their steps.

Whoever wants to take chunks waits for the lock of the relay. With the lock it drives some work, or
takes what is queued to forward or to drop it. It looks at the queue once for each chunk and once
more to find it empty, and between any two looks chunks may be added, and messages of others may be
queued for the editor. The work of a drive is anything that comes to a value.

* `RelayStage`: how far a use of a relay has come.
* `Desk.step`: what each step does, `none` where it cannot happen.
-/

namespace LispBridge

/-- What the lock of a relay is wanted for. -/
inductive RelayUse where
  /-- Some work is done while output is forwarded. -/
  | drive
  /-- What is queued is forwarded. -/
  | flush
  /-- What is queued is dropped. -/
  | discard
deriving DecidableEq, Repr

/-- What a use of a relay returns. -/
inductive RelayAnswer (α : Type) where
  /-- The value of the work. -/
  | value (v : α)
  /-- How many chunks were taken. -/
  | count (n : Nat)
deriving DecidableEq, Repr

/-- What became of a chunk that was taken. -/
inductive Fate where
  | forwarded | dropped
deriving DecidableEq, Repr

/-- How far a use of a relay has come. -/
inductive RelayStage (α : Type) where
  /-- It waits for the lock. -/
  | waiting
  /-- It forwards what was queued before its work begins. -/
  | opening
  /-- Its work is done, and output is forwarded meanwhile. -/
  | working
  /-- It forwards what is left after its work. -/
  | closing (v : α)
  | flushing (count : Nat)
  | discarding (count : Nat)
  /-- It has found nothing more, and is about to give the lock back. -/
  | leaving (answer : RelayAnswer α)
deriving DecidableEq, Repr

namespace RelayStage

variable {α : Type}

/-- The stage in which a use begins. -/
def first : RelayUse → RelayStage α
  | .drive => opening
  | .flush => flushing 0
  | .discard => discarding 0

/-- What a look that finds a chunk leads to, and what becomes of the chunk. -/
def onChunk : RelayStage α → Option (RelayStage α × Fate)
  | opening => some (opening, .forwarded)
  | working => some (working, .forwarded)
  | closing v => some (closing v, .forwarded)
  | flushing n => some (flushing (n + 1), .forwarded)
  | discarding n => some (discarding (n + 1), .dropped)
  | waiting | leaving _ => none

/-- What a look that finds nothing leads to. While work is done it leads nowhere: the next chunk is
waited for. -/
def onEmpty : RelayStage α → Option (RelayStage α)
  | opening => some working
  | closing v => some (leaving (.value v))
  | flushing n | discarding n => some (leaving (.count n))
  | waiting | working | leaving _ => none

end RelayStage

/-- Something that came about at a relay. -/
inductive RelayEvent (α : Type) where
  | sent (c : Chunk)
  | taken (c : Chunk) (fate : Fate)
  /-- Somebody else queued a message for the editor. -/
  | queued (r : Response)
  | began (id : Nat) (use : RelayUse)
  /-- The work of a drive came to a value. -/
  | finished (id : Nat) (v : α)
  | returned (id : Nat) (answer : RelayAnswer α)
deriving DecidableEq, Repr

/-- A relay with all who use it. -/
structure Desk (α : Type) where
  relay : Relay := {}
  lock : Lock := {}
  /-- How far each use has come. -/
  stage : Nat → Option (RelayStage α) := fun _ => none
  /-- Everything that was queued for the editor, in order. -/
  outbox : List Response := []
  /-- Everything that came about at the relay, in order. -/
  log : List (RelayEvent α) := []

namespace Desk

variable {α : Type}

/-- A step of somebody at a relay. -/
inductive Label (α : Type) where
  /-- The interpreter prints. -/
  | send (c : Chunk)
  /-- The interpreter's output ends. -/
  | close
  /-- A message that is no output is queued for the editor. -/
  | queue (r : Response)
  /-- Somebody asks for the lock. -/
  | ask (id : Nat)
  /-- Whoever has the lock begins to use the relay. -/
  | begin (id : Nat) (use : RelayUse)
  /-- A use looks at the queue. -/
  | look (id : Nat)
  /-- The work of a drive comes to its value. -/
  | finish (id : Nat) (v : α)
  /-- A use gives the lock back and returns. -/
  | leave (id : Nat)
  /-- A use is given up, which it can be while it waits. -/
  | cancel (id : Nat)

/-- A desk on which a use has come to a stage, or is over. -/
def move (d : Desk α) (id : Nat) (stage : Option (RelayStage α)) : Desk α :=
  { d with stage := Function.update d.stage id stage }

/-- Notes what came about. -/
def note (d : Desk α) (e : RelayEvent α) : Desk α :=
  { d with log := d.log ++ [e] }

/-- A desk on which a chunk was taken from the relay. -/
def take (d : Desk α) (c : Chunk) (relay : Relay) : Fate → Desk α
  | .forwarded =>
    { d with relay, outbox := d.outbox ++ [c.response] }.note (.taken c .forwarded)
  | .dropped => { d with relay }.note (.taken c .dropped)

/-- A look at the queue in a stage, if this stage looks. -/
def look (d : Desk α) (id : Nat) (stage : RelayStage α) : Option (Desk α) :=
  match d.relay.next? with
  | some (c, relay) => do
    let (stage, fate) ← stage.onChunk
    return (d.take c relay fate).move id stage
  | none => do
    return d.move id (← stage.onEmpty)

/-- What a step does, if it can happen. -/
def step (d : Desk α) : Label α → Option (Desk α)
  | .send c =>
    if d.relay.isOpen then some ({ d with relay := d.relay.print c }.note (.sent c)) else none
  | .close => some { d with relay := d.relay.close }
  | .queue r => some ({ d with outbox := d.outbox ++ [r] }.note (.queued r))
  | .ask id =>
    match d.stage id with
    | none => some ({ d with lock := d.lock.join id }.move id (some .waiting))
    | some _ => none
  | .begin id use =>
    match d.stage id with
    | some .waiting =>
      if d.lock.holder = some id then
        some ((d.move id (some (.first use))).note (.began id use))
      else none
    | _ => none
  | .look id => do d.look id (← d.stage id)
  | .finish id v =>
    match d.stage id with
    | some .working => some ((d.move id (some (.closing v))).note (.finished id v))
    | _ => none
  | .leave id =>
    match d.stage id with
    | some (.leaving answer) =>
      some (({ d with lock := d.lock.leave id }.move id none).note (.returned id answer))
    | _ => none
  | .cancel id =>
    match d.stage id with
    | some .waiting | some .working => some ({ d with lock := d.lock.leave id }.move id none)
    | _ => none

/-- What a sequence of steps does, if each can happen in its turn. -/
def run (d : Desk α) : List (Label α) → Option (Desk α)
  | [] => some d
  | l :: ls => do (← d.step l).run ls

end Desk

/-! ### What a log tells -/

namespace RelayEvent

variable {α : Type}

def sent? : RelayEvent α → Option Chunk
  | sent c => some c
  | _ => none

def taken? : RelayEvent α → Option (Chunk × Fate)
  | taken c fate => some (c, fate)
  | _ => none

/-- The message that was queued for the editor. -/
def message? : RelayEvent α → Option Response
  | taken c .forwarded => some c.response
  | queued r => some r
  | _ => none

/-- Whether an event may come about while output is forwarded: a chunk is sent or forwarded, or
somebody else queues a message. -/
def isForwarding : RelayEvent α → Bool
  | sent _ | taken _ .forwarded | queued _ => true
  | _ => false

/-- The chunks that were sent, in order. -/
def sentIn (log : List (RelayEvent α)) : List Chunk :=
  log.filterMap sent?

/-- The chunks that were taken, in order, with what became of each. -/
def takenIn (log : List (RelayEvent α)) : List (Chunk × Fate) :=
  log.filterMap taken?

/-- The messages that were queued for the editor, in order. -/
def messagesIn (log : List (RelayEvent α)) : List Response :=
  log.filterMap message?

end RelayEvent

end LispBridge
