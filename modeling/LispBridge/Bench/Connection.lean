import LispBridge.Bench.Basic
import LispBridge.Connection.Basic

/-!
A connection on a test bench: the bytes of the editor and the clock are moved by hand, and after
every step of the scenario everything runs until it waits for something.

The reader takes every frame that is there before a request goes on, and messages are written as
soon as nothing else can happen.
-/

namespace LispBridge

/-- A connection on a test bench: the bench of its session, and its byte streams. -/
structure ConnectionBench where
  bench : Bench
  link : Link := {}

namespace ConnectionBench

def connection (b : ConnectionBench) : Connection :=
  ⟨b.bench.system, b.link⟩

/-- Lets an event happen, if it can. -/
def happen (b : ConnectionBench) (l : Connection.Label) : ConnectionBench :=
  match b.connection.step l with
  | some c => { bench := (b.bench.notice c.system).welcome b.bench.system, link := c.link }
  | none => b

/-- Reads frames until there is none to read. The count bounds the frames. -/
def readUpTo : Nat → ConnectionBench → ConnectionBench
  | 0, b => b
  | n + 1, b => if (b.connection.step .read).isSome then readUpTo n (b.happen .read) else b

/-- Reads frames until there is none to read: each has a header, and one more attempt ends the
reading. -/
def readAll (b : ConnectionBench) : ConnectionBench :=
  readUpTo (b.link.buffer.length + 1) b

/-- Cancels the requests under way if they have had their time. -/
def abort (b : ConnectionBench) : ConnectionBench :=
  if (b.connection.step .abort).isSome then { b with bench := b.bench.cancelAll } else b

/-- Lets the writer write all that is queued, and stop if it may. -/
def writeAll (b : ConnectionBench) : ConnectionBench :=
  ((b.bench.session.outbox.drop b.link.written).foldl (fun b _ => b.happen .write) b).happen .write

/-- Runs everything until it waits for something. -/
def settle (b : ConnectionBench) : ConnectionBench :=
  let b := b.readAll.abort
  let b := { b with bench := b.bench.settle }
  let b := (b.happen .noticeClosed).abort
  let b := ((b.writeAll.happen .noticeWriter).happen .rest).happen .cancelWriter
  b.writeAll.happen .close

/-- When the requests under way have had their time. -/
def deadline? (b : ConnectionBench) : Option Nat :=
  match b.link.phase with
  | .draining _ deadline => some deadline
  | _ => none

/-- Lets time pass, with a stop at the deadline of the requests under way. -/
def tick (b : ConnectionBench) (milliseconds : Nat) : ConnectionBench :=
  let now := b.bench.session.clock
  match b.deadline? with
  | some deadline =>
    let first := min milliseconds (deadline - now)
    let b := { b with bench := b.bench.tick first }.settle
    { b with bench := b.bench.tick (milliseconds - first) }
  | none => { b with bench := b.bench.tick milliseconds }

end ConnectionBench

end LispBridge
