import LispBridge.Session.Restart

/-!
A scripted interpreter: what it prints and answers is written down beforehand, call by call.
-/

namespace LispBridge

/-- How one call is played. -/
structure Part where
  print : List Chunk := []
  /-- The key that the call waits for, if it waits. -/
  block : Option String := none
  after : List Chunk := []
  /-- What the call fails with, if it fails. -/
  failure : Option Failure := none
  chunks : List Chunk := []
  /-- What a command yields, if not the default. -/
  value : Option Datum := none
  /-- The stack frames, if not the default. -/
  frames : Option (List String) := none
deriving DecidableEq, Repr

namespace Part

/-- What a command yields by default: the prompt if it asks for it. -/
def defaultValue (command : String) : Datum :=
  if command = promptCommand then .list [.str "USER", .str "irteusgl"] else .nil

/-- The stack frames that are told by default: at most five. -/
def defaultFrames (depth : Nat) : List String :=
  (List.range (min depth 5)).map fun i => s!"frame-{i}"

def yield (p : Part) : (c : Call) → c.Yield
  | .start | .stop | .reset | .input _ => ()
  | .eval _ => p.chunks
  | .command text _ => p.value.getD (defaultValue text)
  | .callStack depth => p.frames.getD (defaultFrames depth)

def answer (p : Part) (c : Call) : c.Answer :=
  match p.failure with
  | some failure => .error failure
  | none => .ok (p.yield c)

end Part

/-- The parts that are still to be played, for each kind of call. A part for a command names the
text that the command begins with. -/
structure Script where
  /-- The part of a call for which nothing is left. -/
  otherwise : Part := {}
  start : List Part := []
  stop : List Part := []
  reset : List Part := []
  eval : List Part := []
  callStack : List Part := []
  input : List Part := []
  interrupt : List Part := []
  command : List (String × Part) := []
deriving DecidableEq, Repr

namespace Script

/-- The next part of a queue, and the others. -/
def next (s : Script) : List Part → Part × List Part
  | [] => (s.otherwise, [])
  | p :: ps => (p, ps)

/-- The first part for a command, and the others. -/
def nextCommand (s : Script) (text : String) : List (String × Part) → Part × List (String × Part)
  | [] => (s.otherwise, [])
  | (start, p) :: ps =>
    if text.startsWith start then (p, ps)
    else
      let (found, ps) := s.nextCommand text ps
      (found, (start, p) :: ps)

def take (s : Script) : Call → Part × Script
  | .start => let (p, rest) := s.next s.start; (p, { s with start := rest })
  | .stop => let (p, rest) := s.next s.stop; (p, { s with stop := rest })
  | .reset => let (p, rest) := s.next s.reset; (p, { s with reset := rest })
  | .eval _ => let (p, rest) := s.next s.eval; (p, { s with eval := rest })
  | .callStack _ => let (p, rest) := s.next s.callStack; (p, { s with callStack := rest })
  | .input _ => let (p, rest) := s.next s.input; (p, { s with input := rest })
  | .command text _ =>
    let (p, rest) := s.nextCommand text s.command
    (p, { s with command := rest })

def takeInterrupt (s : Script) : Part × Script :=
  let (p, rest) := s.next s.interrupt
  (p, { s with interrupt := rest })

/-- A script followed by another. -/
def append (s t : Script) : Script where
  otherwise := s.otherwise
  start := s.start ++ t.start
  stop := s.stop ++ t.stop
  reset := s.reset ++ t.reset
  eval := s.eval ++ t.eval
  callStack := s.callStack ++ t.callStack
  input := s.input ++ t.input
  interrupt := s.interrupt ++ t.interrupt
  command := s.command ++ t.command

end Script

end LispBridge
