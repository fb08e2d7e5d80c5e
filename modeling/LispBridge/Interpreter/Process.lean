import LispBridge.Config.Basic
import LispBridge.Interpreter.Call
import LispBridge.Interpreter.ReplyLine
import LispBridge.Interpreter.Stdout

/-!
An interpreter in a process of its own: a request is one form on its standard input, and the lines
on its standard output up to the reply belong to the request.

* `Call.form?`: the form that a call is written as.
* `awaitReady`, `awaitReply`: what lines mean to the start of a process and to a request.
-/

namespace LispBridge

/-- Why an interpreter's process does not do what it is asked for. -/
inductive ProcessFault where
  | spawn (program : String) (fault : FileFault)
  /-- The process was not ready within so many milliseconds. -/
  | notReady (milliseconds : Nat)
  | exitedEarly
  | unreadableStart (fault : Utf8.Fault)
  | notRunning
  | notWritten (reason : String)
  | exited
  | unreadable (fault : Utf8.Fault)
  | badReply (fault : ReplyFault)
deriving DecidableEq, Repr

/-- A length of time, in the unit that suits it. -/
def showDuration (milliseconds : Nat) : String :=
  let thousandths := (toString (milliseconds % 1000 + 1000)).drop 1
  let fraction := (thousandths.dropEndWhile (· = '0')).toString
  if milliseconds = 0 then "0ns"
  else if milliseconds < 1000 then s!"{milliseconds}ms"
  else if fraction.isEmpty then s!"{milliseconds / 1000}s"
  else s!"{milliseconds / 1000}.{fraction}s"

def ProcessFault.message : ProcessFault → String
  | spawn program fault => s!"failed to spawn interpreter {program}: {fault.message}"
  | notReady milliseconds =>
    s!"startup timeout: interpreter not ready within {showDuration milliseconds}"
  | exitedEarly => "interpreter exited before ready signal"
  | unreadableStart fault => s!"failed to read ready signal: {fault.message}"
  | notRunning => "interpreter is not running"
  | notWritten reason => s!"write to interpreter failed: {reason}"
  | exited => "interpreter exited"
  | unreadable fault => s!"read from interpreter failed: {fault.message}"
  | badReply fault => fault.message

/-- A fault of the process is a failure of the call. -/
def ProcessFault.failure (f : ProcessFault) : Failure :=
  .process f.message

/-! ### Requests -/

/-- A form that runs code in the interpreter. -/
def codeForm (operator code channel : String) : String :=
  s!"(slime::{operator} \"{Datum.escape code}\"{channel})"

def Call.form? : Call → Option String
  | .start | .stop | .input _ => none
  | .reset => some "(slime::euslime-reset)"
  | .eval code => some (codeForm "euslime-eval" code "")
  | .command text .internal => some (codeForm "euslime-exec" text " :internal")
  | .command text .repl => some (codeForm "euslime-exec" text " :repl")
  | .callStack depth => some s!"(slime::euslime-callstack {depth})"

/-- What a call yields when the interpreter replies with a value. The output of an evaluation has
all been emitted by then. -/
def Call.yieldOf (value : Datum) : (c : Call) → c.Yield
  | .start | .stop | .reset | .input _ => ()
  | .eval _ => []
  | .command .. => value
  | .callStack _ => ReplyLine.descriptions value

/-- Text that is written to a pending read: without the line feeds at its end. -/
def inputLine (text : String) : String :=
  String.ofList (text.toList.reverse.dropWhile (· = '\n')).reverse

/-! ### Reading -/

/-- What reading lines has come to. -/
structure Harvest (α : Type) where
  chunks : List Chunk
  /-- The outcome; nothing as long as more lines have to come. -/
  outcome : Option (Except Failure α)
  rest : List OutputLine

namespace Harvest

/-- Puts a chunk in front. -/
def emit {α : Type} (c : Chunk) (h : Harvest α) : Harvest α :=
  { h with chunks := c :: h.chunks }

/-- An outcome, with nothing emitted. -/
def done {α : Type} (outcome : Except Failure α) (rest : List OutputLine) : Harvest α :=
  ⟨[], some outcome, rest⟩

/-- No lines: that is a failure if none will come. -/
def wait {α : Type} (isOver : Bool) (fault : ProcessFault) : Harvest α :=
  ⟨[], if isOver then some (.error fault.failure) else none, []⟩

end Harvest

/-- A line that is no reply, as output. -/
def outputChunk (text : String) : Chunk :=
  ⟨text ++ "\n", false⟩

/-- Reads the lines that a process writes until it is ready. Other replies are ignored. -/
def awaitReady (delimiter : String) (isOver : Bool) : List OutputLine → Harvest Unit
  | [] => .wait isOver .exitedEarly
  | .error fault :: rest => .done (.error (ProcessFault.unreadableStart fault).failure) rest
  | .ok line :: rest =>
    match ReplyLine.classify delimiter line with
    | .error fault => .done (.error (ProcessFault.badReply fault).failure) rest
    | .ok .ready => .done (.ok ()) rest
    | .ok (.output text) => (awaitReady delimiter isOver rest).emit (outputChunk text)
    | .ok _ => awaitReady delimiter isOver rest

/-- Reads the lines that belong to a request: up to the reply that ends it. -/
def awaitReply (delimiter : String) (isOver : Bool) : List OutputLine → Harvest Datum
  | [] => .wait isOver .exited
  | .error fault :: rest => .done (.error (ProcessFault.unreadable fault).failure) rest
  | .ok line :: rest =>
    match ReplyLine.classify delimiter line with
    | .error fault => .done (.error (ProcessFault.badReply fault).failure) rest
    | .ok (.ok value) => .done (.ok value) rest
    | .ok (.abort message) => .done (.error (.abort message)) rest
    | .ok (.raised condition) => .done (.error (.interpreter condition)) rest
    | .ok (.output text) => (awaitReply delimiter isOver rest).emit (outputChunk text)
    | .ok (.printed text) => (awaitReply delimiter isOver rest).emit ⟨text, true⟩
    | .ok .ready => awaitReply delimiter isOver rest

/-- Requests that one process serves one after another: what each emits and comes to, and what is
left. -/
def awaitReplies (delimiter : String) (isOver : Bool) :
    Nat → List OutputLine → List (List Chunk × Option (Except Failure Datum)) × List OutputLine
  | 0, lines => ([], lines)
  | n + 1, lines =>
    let h := awaitReply delimiter isOver lines
    let (later, rest) := awaitReplies delimiter isOver n h.rest
    ((h.chunks, h.outcome) :: later, rest)

end LispBridge
