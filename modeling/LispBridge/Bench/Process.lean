import LispBridge.Bench.Child
import LispBridge.Interpreter.Process

/-!
An interpreter in a process, on a test bench: the process is scripted, and after every step it has
done all that it does before the next.

* `ProcessBench.start`, `stop`, `restart`, `interrupt`, `input`, `request`: the interpreter's calls.
* `ProcessBench.begin`, `ProcessBench.join`: a request in the background.
-/

namespace LispBridge

/-- How a process is launched. -/
structure Launch where
  program : String
  arguments : List String := []
  initFile : Option String := none
  delimiter : String := ";;euslime;; "
  /-- How long, in milliseconds, it may take to start. -/
  timeout : Nat := 5000
  directory : String := "/"
  /-- What the program does, if it can be run. -/
  script : Except FileFault ChildScript

/-- A process and what it wrote. -/
structure RunningChild where
  child : Child
  stdout : Stdout

/-- A request in the background. -/
inductive Background where
  | none
  | waiting
  | done (outcome : Except Failure Datum)

/-- An interpreter's process on a test bench. -/
structure ProcessBench where
  launch : Launch
  process : Option RunningChild := none
  /-- The output that was emitted and nobody has taken. -/
  emitted : List Chunk := []
  background : Background := .none

namespace ProcessBench

def emit (b : ProcessBench) (chunks : List Chunk) : ProcessBench :=
  { b with emitted := b.emitted ++ chunks }

/-- Lets a process go on: its output is there to be read, and its diagnostics are emitted. -/
def goOn (b : ProcessBench) (stdout : Stdout) (child : Child) (out : ChildOutput) :
    ProcessBench × RunningChild :=
  let stdout := stdout.feed out.bytes
  let stdout := if child.isAlive then stdout else stdout.finish
  (b.emit (out.complaints.map outputChunk), ⟨child, stdout⟩)

/-- Lets a request in the background read on. -/
def readOn (b : ProcessBench) : ProcessBench :=
  match b.background, b.process with
  | .waiting, some p =>
    let h := awaitReply b.launch.delimiter p.stdout.isOver p.stdout.lines
    let b := b.emit h.chunks
    { b with
      process := some { p with stdout.lines := h.rest }
      background := match h.outcome with
        | some outcome => .done outcome
        | none => .waiting }
  | _, _ => b

def takeEmitted (b : ProcessBench) : List Chunk × ProcessBench :=
  (b.emitted, { b with emitted := [] })

/-- Takes so many chunks of the output that was emitted. -/
def receive (b : ProcessBench) (n : Nat) : List Chunk × ProcessBench :=
  (b.emitted.take n, { b with emitted := b.emitted.drop n })

/-! ### Start and stop -/

/-- Launches the process and waits until it is ready. Without any time it cannot be ready. -/
def launchNow (b : ProcessBench) : ProcessBench × Except Failure Unit :=
  let l := b.launch
  let late : Except Failure Unit := .error (ProcessFault.notReady l.timeout).failure
  match l.script with
  | .error fault => (b, .error (ProcessFault.spawn l.program fault).failure)
  | .ok script =>
    if l.timeout = 0 then (b, late)
    else
      let (child, out) := Child.start script (l.arguments ++ l.initFile.toList) l.directory
      let (b, p) := b.goOn {} child out
      let h := awaitReady l.delimiter p.stdout.isOver p.stdout.lines
      let b := b.emit h.chunks
      match h.outcome with
      | some (.ok ()) => ({ b with process := some { p with stdout.lines := h.rest } }, .ok ())
      | some failed => (b, failed)
      | none => (b, late)

/-- Starts the interpreter, unless it was started before. -/
def start (b : ProcessBench) : ProcessBench × Except Failure Unit :=
  if b.process.isSome then (b, .ok ()) else b.launchNow

/-- Stops the interpreter. A request in the background reads what was written before. -/
def stop (b : ProcessBench) : ProcessBench :=
  match b.process with
  | none => b
  | some p =>
    let (b, p) := b.goOn p.stdout p.child.kill {}
    { { b with process := some p }.readOn with process := none }

/-- Stops the interpreter and starts it again. -/
def restart (b : ProcessBench) : ProcessBench × Except Failure Unit :=
  b.stop.start

/-! ### Lines to the process -/

/-- Interrupts the process, if there is one. -/
def interrupt (b : ProcessBench) : ProcessBench :=
  match b.process with
  | none => b
  | some p =>
    let (child, out) := if p.child.isAlive then p.child.interrupt else (p.child, {})
    let (b, p) := b.goOn p.stdout child out
    { b with process := some p }.readOn

/-- Writes a text and a line feed to the process. -/
def writeLine (b : ProcessBench) (text : String) : ProcessBench × Except Failure Unit :=
  match b.process with
  | none => (b, .error ProcessFault.notRunning.failure)
  | some p =>
    if p.child.isAlive then
      let (child, out) := p.child.readAll (textLines (text ++ "\n"))
      let (b, p) := b.goOn p.stdout child out
      ({ b with process := some p }, .ok ())
    else (b, .error (ProcessFault.notWritten "Broken pipe (os error 32)").failure)

/-- Delivers text to a pending read. -/
def input (b : ProcessBench) (text : String) : ProcessBench × Except Failure Unit :=
  let (b, result) := b.writeLine (inputLine text)
  (b.readOn, result)

/-! ### Requests -/

/-- Begins a request in the background. -/
def begin (b : ProcessBench) (c : Call) : ProcessBench :=
  match b.writeLine (c.form?.getD "") with
  | (b, .ok ()) => { b with background := .waiting }.readOn
  | (b, .error failure) => { b with background := .done (.error failure) }

/-- The outcome of the request in the background, if it has one. -/
def join (b : ProcessBench) : ProcessBench × Option (Except Failure Datum) :=
  match b.background with
  | .done outcome => ({ b with background := .none }, some outcome)
  | _ => (b, none)

/-- Makes a request and waits for its outcome. -/
def request (b : ProcessBench) (c : Call) : ProcessBench × Option c.Answer :=
  let (b, outcome) := (b.begin c).join
  (b, outcome.map fun r => r.map fun value => c.yieldOf value)

end ProcessBench

end LispBridge
