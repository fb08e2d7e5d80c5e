import LispBridge.Message.Argument
import LispBridge.Session.Restart

/-!
Running code of the user: evaluations, compilations and loading.

All of these hold the gate while they run. An evaluation is announced to the editor by a
read-string event and closed by a read-aborted event, whatever comes of it.
-/

namespace LispBridge

/-- The end of a request: its result, and messages about other requests that follow it. -/
structure Outcome where
  verdict : Verdict
  trailing : List Response := []
deriving DecidableEq, Repr

namespace Outcome

/-- A request that yields a value. -/
def ok (value : Datum) : Outcome :=
  ⟨.ok value, []⟩

/-- A request that yields nothing. -/
def nil : Outcome :=
  ok .nil

/-- A request whose evaluation was cancelled: an abort if there is something to say. -/
def ofAbort : Option String → Outcome
  | some message => ⟨.abort (some message), []⟩
  | none => nil

/-- A request that left debugger levels. -/
def unwound (trailing : List Response) : Outcome :=
  ⟨.abort (some "NIL"), trailing⟩

end Outcome

/-- How an evaluation ended, if it raised nothing. -/
inductive Evaluated where
  | finished
  | aborted (message : Option String)
deriving DecidableEq, Repr

namespace Action

/-- Evaluates code between the two markers, with its output relayed. The output that belongs to
the result follows the second marker. -/
def evaluateMarked (code : String) : Action Evaluated := do
  Program.event .readString
  let answer ← attempt (ofAnswer (Program.drive (.eval code)))
  Program.event .readAborted
  match answer with
  | .ok chunks =>
    Program.emitAll (chunks.map Chunk.response)
    return .finished
  | .error (.abort message) => return .aborted message
  | .error failure => throw failure

/-- Evaluates an expression, and refreshes the prompt. -/
def evaluate (r : Request) : Action Outcome := do
  let code ← ofExcept (r.strArg 0)
  Program.perform .lockGate
  match ← evaluateMarked code with
  | .finished =>
    refreshPrompt
    return .nil
  | .aborted message =>
    refreshPrompt
    return .ofAbort message

/-- Evaluates an expression of the REPL. With a debugger level active it leaves the debugger
instead, and gives up its place in the queue of the gate. -/
def listenerEval (settings : Settings) (r : Request) : Action Outcome := do
  let depth ← Program.perform .depth
  if depth = 0 then evaluate r
  else
    Program.perform .releaseGate
    match ← throwToToplevel settings with
    | some trailing => return .unwound trailing
    | none => evaluate r

/-! ### Compilation -/

/-- The value of a compilation: what it took, whether to load the file, and the file. -/
def compilationResult (seconds : Binary64) (load file : Datum) : Datum :=
  .list [.keyword "compilation-result", .nil, .t, .float seconds, load, file]

/-- The command that evaluates several forms, given as text, one after another. -/
def prognCommand (source : String) : String :=
  s!"(lisp:progn {source})"

def loadCommand (file : String) : String :=
  s!"(lisp:load \"{Datum.escape file}\")"

/-- A form as the notice of its loading shows it: of a form with more than two elements, the first
two. -/
def abbreviate : Datum → Datum
  | .list (a :: b :: _ :: _) => .list [a, b, .symbol "..."]
  | d => d

def loadedNotice (form : Datum) : Response :=
  .event (.writeString s!"; Loaded {(abbreviate form).wire}\n" false)

/-- Evaluates the forms of a text, and tells which were loaded. -/
def compileString (r : Request) : Action Outcome := do
  let source ← ofExcept (r.strArg 0)
  let forms ← ofExcept ((Datum.readAll source).mapError fun fault => .malformed fault.message)
  Program.perform .lockGate
  let started ← Program.perform .clock
  match ← evaluateMarked (prognCommand source) with
  | .finished =>
    Program.emitAll (forms.map loadedNotice)
    let now ← Program.perform .clock
    return .ok (compilationResult (.nearest false (now - started) 1000) .nil .nil)
  | .aborted message => return .ofAbort message

/-- The seconds reported for a compilation that does nothing: a hundredth. -/
def nominalSeconds : Binary64 :=
  .ofDecimal false 1 (-2)

/-- Answers that a file is compiled, without asking the interpreter: the editor loads it next. -/
def compileFile (r : Request) : Action Outcome := do
  let file ← ofExcept (r.strArg 0)
  return .ok (compilationResult nominalSeconds (.ofBool (r.optArg? 1).isSome) (.str file))

/-- Loads a file, and tells when that begins and how it ends. -/
def loadFile (r : Request) : Action Outcome := do
  let file ← ofExcept (r.strArg 0)
  Program.perform .lockGate
  Program.event (.writeString s!"Loading file: {file} ...\n" false)
  match ← attempt (ofAnswer (Program.drive (.command (loadCommand file) .repl))) with
  | .ok value =>
    Program.event (.writeString "Loaded.\n" false)
    return .ok value
  | .error (.abort none) => return .nil
  | .error (.abort (some message)) =>
    Program.event (.writeString s!"; Evaluation aborted on {message}\n" true)
    return .nil
  | .error failure => throw failure

end Action

end LispBridge
