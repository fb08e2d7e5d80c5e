import LispBridge.Frame.Basic
import LispBridge.Message.Outbound

/-!
Writing messages as frames. A message that does not fit in one frame never stops the writer: long
output is sent in pieces, a result that is too large is replaced by an abort, and any other event
that is too large is dropped.

* `splitText`: a text in pieces of bounded size.
* `Response.frames`: the frames of a message.
* `Writer.run`: messages written to a sink until it fails.
-/

namespace LispBridge

/-! ### Pieces of a text -/

/-- The pieces cut off so far, last first, and the piece being filled. -/
structure Pieces where
  done : List String := []
  piece : String := ""
deriving DecidableEq, Repr

/-- Adds a character to the piece being filled, or begins another with it. -/
def Pieces.push (max : Nat) (p : Pieces) (c : Char) : Pieces :=
  if p.piece.utf8ByteSize + c.utf8Size ≤ max ∨ p.piece.isEmpty then
    { p with piece := p.piece.push c }
  else
    { done := p.piece :: p.done, piece := String.singleton c }

/-- The pieces of a text, each as long as `max` bytes allow. -/
def splitText (max : Nat) (text : String) : List String :=
  let p := text.foldl (Pieces.push max) {}
  (if p.piece.isEmpty then p.done else p.piece :: p.done).reverse

/-! ### Frames of a message -/

/-- The longest output sent in one event. Escapes at most double it, so that it fits in a frame. -/
def maxOutput : Nat := (Frame.maxPayload - 64) / 2

/-- The frame of a message, if it fits in one. -/
def Response.frame? (r : Response) : Option Frame :=
  (Frame.ofPayload r.payload).toOption

def Response.frames (r : Response) : List Frame :=
  match r with
  | .event (.writeString text isResult) =>
    if text.utf8ByteSize ≤ maxOutput then r.frame?.toList
    else
      (splitText maxOutput text).filterMap fun piece =>
        (Response.event (.writeString piece isResult)).frame?
  | .result _ id =>
    (r.frame?.or (Response.result (.abort (some "response too large")) id).frame?).toList
  | .event _ => r.frame?.toList

/-! ### The writer -/

/-- Where frames go. -/
structure Sink where
  /-- The number of bytes that are still accepted, if there is a limit. -/
  room : Option Nat := none
  /-- What a write beyond the limit fails with. -/
  writeError : String := "no room"
  /-- What a flush fails with, if it does. -/
  flushError : Option String := none
  frames : List Frame := []
  /-- The frame in which a write failed, if one did. -/
  broken : Option Frame := none
  /-- How many bytes of that frame were accepted. -/
  spill : Nat := 0
deriving DecidableEq, Repr

/-- The bytes that a sink has accepted. -/
def Sink.accepted (sink : Sink) : List UInt8 :=
  sink.frames.flatMap (fun f => Utf8.encode f.text) ++
    (sink.broken.toList.flatMap fun f => Utf8.encode f.text).take sink.spill

namespace Writer

/-- Writes one frame whole, or as much of it as the sink accepts. -/
def writeFrame (sink : Sink) (f : Frame) : Sink × Except Failure Unit :=
  match sink.room with
  | none => ({ sink with frames := sink.frames ++ [f] }, .ok ())
  | some room =>
    if f.size ≤ room then
      ({ sink with room := some (room - f.size), frames := sink.frames ++ [f] }, .ok ())
    else
      ({ sink with room := some 0, broken := some f, spill := room },
        .error (.io s!"write failed: {sink.writeError}"))

/-- Writes frames until one fails. -/
def writeFrames (sink : Sink) : List Frame → Sink × Except Failure Unit
  | [] => (sink, .ok ())
  | f :: fs =>
    match writeFrame sink f with
    | (sink, .ok ()) => writeFrames sink fs
    | failed => failed

/-- Writes a message and flushes the sink. -/
def writeResponse (sink : Sink) (r : Response) : Sink × Except Failure Unit :=
  match writeFrames sink r.frames with
  | (sink, .ok ()) =>
    (sink, match sink.flushError with
      | some text => .error (.io text)
      | none => .ok ())
  | failed => failed

/-- Writes messages until one fails. -/
def run (sink : Sink) : List Response → Sink × Except Failure Unit
  | [] => (sink, .ok ())
  | r :: rs =>
    match writeResponse sink r with
    | (sink, .ok ()) => run sink rs
    | failed => failed

end Writer

end LispBridge
