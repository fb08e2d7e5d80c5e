import LispBridge.Frame.Writer
import LispBridge.Session.System

/-!
A connection: an editor's bytes on their way into a session, and the session's messages on their
way out.

A connection serves until the editor's bytes end or are at fault, until a request closes the
session, until it is cancelled, or until the writer fails. From then on nothing is read. The
requests under way may go on for a while and are then cancelled. The writer may go on for as long
again and is then told to stop, which it does when nothing is queued.

* `Link`: the state of the two byte streams.
* `Connection.write?`: what the writer does in one turn.
* `Connection.step`: what each event (`Connection.Label`) does, `none` where it cannot happen.
-/

namespace LispBridge

/-- Why a connection reads no more. -/
inductive Ending where
  /-- There is nothing more to read, or no wish to. -/
  | finished
  /-- The editor's bytes are at fault. -/
  | failed (fault : FrameFault)
  /-- The reader failed on a payload. -/
  | crashed
deriving DecidableEq, Repr

/-- How far a connection has come. -/
inductive Phase where
  | serving
  /-- Requests may go on until the deadline. -/
  | draining (ending : Ending) (deadline : Nat)
  /-- No request is left. The writer may go on until the deadline, if there is one. -/
  | closing (ending : Ending) (deadline : Option Nat)
  | closed (ending : Ending)
deriving DecidableEq, Repr

/-- What the writer does. -/
inductive WriterState where
  | writing
  /-- It has written everything, or everything up to when it was told to stop. -/
  | stopped
  | failed (failure : Failure)
deriving DecidableEq, Repr

/-- The byte streams of a connection. -/
structure Link where
  /-- The bytes that came and have not been read. -/
  buffer : List UInt8 := []
  /-- Whether the editor's bytes have ended. -/
  isInputOver : Bool := false
  phase : Phase := .serving
  /-- How long, in milliseconds, requests may go on after the reading has ended, and the writer
  after the requests. -/
  grace : Nat := 1000
  /-- Where messages are written to. -/
  sink : Sink := {}
  /-- How many of the queued messages have been written. -/
  written : Nat := 0
  writer : WriterState := .writing
  /-- Whether the writer has been told to stop. -/
  isWriterCancelled : Bool := false
deriving DecidableEq, Repr

/-- What comes of an attempt to read a frame. -/
inductive Reading where
  | payload (text : String)
  | over (ending : Ending)
  | waiting
deriving DecidableEq, Repr

namespace Link

/-- Reads a frame from the bytes that came. -/
def read (l : Link) : Reading × Link :=
  let (result, buffer) :=
    if l.isInputOver then Frame.decodeEnd l.buffer else Frame.decode l.buffer
  let l := { l with buffer }
  match result with
  | some (.ok payload) => (.payload payload, l)
  | some (.error fault) => (.over (.failed fault), l)
  | none => (if l.isInputOver then .over .finished else .waiting, l)

/-- How many bytes of the next frame have not come, as far as the bytes that came tell. -/
def missing (l : Link) : Nat :=
  let header := l.buffer.take Frame.headerLength
  if header.length < Frame.headerLength then Frame.headerLength - header.length
  else ((Frame.announced? header).getD 0 + Frame.headerLength) - l.buffer.length

def stopReading (l : Link) (ending : Ending) (now : Nat) : Link :=
  { l with phase := .draining ending (now + l.grace) }

def startClosing (l : Link) (ending : Ending) (now : Nat) : Link :=
  { l with phase := .closing ending (some (now + l.grace)) }

def write (l : Link) (r : Response) : Link :=
  match Writer.writeResponse l.sink r with
  | (sink, .ok ()) => { l with sink, written := l.written + 1 }
  | (sink, .error failure) => { l with sink, writer := .failed failure }

end Link

/-- A connection and its session. -/
structure Connection where
  system : System
  link : Link := {}

namespace Connection

/-- A connection before anything came. What its session queues goes to a writer of its own. -/
def new (session : Session) (grace : Nat) : Connection :=
  { system := { session := { session with outbox := [] } }, link := { grace } }

/-- An event of a connection. -/
inductive Label where
  | arrive (bytes : List UInt8)
  | endInput
  /-- The editor neither sends nor takes any more. -/
  | hangUp
  /-- A frame is read, or the reading ends. -/
  | read
  | noticeClosed
  | noticeWriter
  | cancel
  /-- The writer has a turn. -/
  | write
  /-- The requests under way have had their time. -/
  | abort
  /-- No request is under way any more. -/
  | rest
  /-- The writer has had its time. -/
  | cancelWriter
  | close
  /-- Anything that happens in the session besides the arrival of a payload. -/
  | session (l : System.Label)

/-- Whether frames are still read. -/
def isServing (c : Connection) : Bool :=
  c.link.phase = .serving

/-- Whether no more can be queued: the reader has given up the queue, and so has every request. -/
def isQueueClosed (c : Connection) : Bool :=
  match c.link.phase with
  | .closing .. => c.system.tasks.isEmpty
  | _ => false

/-- A turn of the writer. It writes what is queued as long as there is something; only then does it
heed that no more can come, or that it is told to stop. -/
def write? (c : Connection) : Option Connection :=
  match c.link.writer, c.system.session.outbox[c.link.written]? with
  | .writing, some r => some { c with link := c.link.write r }
  | .writing, none =>
    if c.isQueueClosed || c.link.isWriterCancelled then
      some { c with link.writer := .stopped }
    else none
  | _, _ => none

def stopReading (c : Connection) (ending : Ending) : Connection :=
  { c with link := c.link.stopReading ending c.system.session.clock }

/-- Delivers a payload. If the reader fails on it, the requests under way end with it. -/
def deliver (c : Connection) (payload : String) : Connection :=
  let system := c.system.deliver payload
  if system.isReading then { c with system }
  else ⟨system.cancelAll, { c.link with phase := .closing .crashed none }⟩

/-- Reads a frame, if there is one to read or the reading is over. -/
def read? (c : Connection) : Option Connection :=
  match c.link.read with
  | (.payload text, link) => some ({ c with link }.deliver text)
  | (.over ending, link) => some ({ c with link }.stopReading ending)
  | (.waiting, _) => none

/-- What an event does, if it can happen. -/
def step (c : Connection) : Label → Option Connection
  | .arrive bytes =>
    if c.link.isInputOver then none
    else some { c with link.buffer := c.link.buffer ++ bytes }
  | .endInput => some { c with link.isInputOver := true }
  | .hangUp => some { c with link.isInputOver := true, link.sink.room := some 0 }
  | .read => if c.isServing then c.read? else none
  | .noticeClosed =>
    if c.isServing ∧ c.system.session.closed then some (c.stopReading .finished) else none
  | .noticeWriter =>
    if c.isServing ∧ c.link.writer ≠ .writing then some (c.stopReading .finished) else none
  | .cancel => if c.isServing then some (c.stopReading .finished) else none
  | .write => c.write?
  | .abort =>
    match c.link.phase with
    | .draining _ deadline =>
      if deadline ≤ c.system.session.clock then some { c with system := c.system.cancelAll }
      else none
    | _ => none
  | .rest =>
    match c.link.phase with
    | .draining ending _ =>
      if c.system.tasks.isEmpty then
        some { c with link := c.link.startClosing ending c.system.session.clock }
      else none
    | _ => none
  | .cancelWriter =>
    match c.link.phase with
    | .closing _ (some deadline) =>
      if deadline ≤ c.system.session.clock then some { c with link.isWriterCancelled := true }
      else none
    | _ => none
  | .close =>
    match c.link.phase with
    | .closing ending _ =>
      if c.link.writer ≠ .writing then some { c with link.phase := .closed ending } else none
    | _ => none
  | .session (.deliver _) => none
  | .session l => (c.system.step l).map fun system => { c with system }

/-- What a sequence of events does, if each can happen in its turn. -/
def run (c : Connection) : List Label → Option Connection
  | [] => some c
  | l :: ls => do (← c.step l).run ls

end Connection

end LispBridge
