import LispBridge.Command
import LispBridge.Message.Salvage
import LispBridge.Session.Query

/-!
Serving messages: the program of every command, the end of a request, and what becomes of a
payload.

* `Action.ofCommand`: what a command does.
* `Program.serve`: serves a request. Its end is one result, or a debugger level that owes it.
* `Delivery.ofPayload`: what a payload calls for.
-/

namespace LispBridge

namespace Action

/-- Leaves a debugger level. -/
def invokeNthRestart (settings : Settings) (r : Request) : Action Outcome := do
  let number ← ofExcept (r.countArg 0)
  let index ← ofExcept (r.countArg 1)
  return .unwound (← invokeRestart settings number index)

/-- Leaves the innermost debugger level by its first restart. -/
def throwRequest (settings : Settings) : Action Outcome := do
  match ← throwToToplevel settings with
  | some trailing => return .unwound trailing
  | none => return .nil

/-- Stops the interpreter and closes the connection. -/
def quitLisp : Action Outcome := do
  let _ ← Program.ask .stop |> ofAnswer |> attempt
  Program.perform .close
  return .nil

def ofCommand (settings : Settings) (host : Host) (r : Request) : Command → Action Outcome
  | .listenerEval => listenerEval settings r
  | .interactiveEval | .interactiveEvalRegion | .pprintEval => evaluate r
  | .compileString | .compileNotes => compileString r
  | .compileFile | .compileFileIfNeeded => compileFile r
  | .loadFile => loadFile r
  | .connectionInfo => connectionInfo settings host
  | .createRepl => createRepl
  | .autodoc => autodoc r
  | .operatorArglist => operatorArglist r
  | .completions => completions r
  | .simpleCompletions => simpleCompletions r
  | .fuzzyCompletions => return .ok (.list [.nil, .nil])
  | .keywordCompletions => keywordCompletions r
  | .characterCompletions => characterCompletions r
  | .describeSymbol | .describeFunction | .describeDefinition => describe r
  | .expand1 => expand r
  | .listAllPackageNames => listAllPackageNames r
  | .aproposList => aproposList r
  | .setPackage => setPackage r
  | .defaultDirectory => defaultDirectory
  | .setDefaultDirectory => setDefaultDirectory r
  | .clearReplVariables => clearReplVariables
  | .backtrace => backtrace settings r
  | .bufferFirstChange | .swankRequire | .initPresentations | .completeForm
  | .inspectCurrentCondition | .sldbAbort | .sldbOut | .frameLocalsAndCatchTags
  | .findDefinitions | .clearReplResults => return .nil
  | .invokeNthRestart => invokeNthRestart settings r
  | .throwToToplevel => throwRequest settings
  | .quitLisp => quitLisp

end Action

namespace Program

/-- Ends a request: by its result, or by a debugger level that owes it. -/
def conclude (id : RequestId) : Except Failure Outcome → Program Unit
  | .ok outcome => do
    finish outcome.verdict id
    emitAll outcome.trailing
  | .error (.abort message) => finish (.abort message) id
  | .error (.interpreter condition) => perform (.enter (.ofCondition id condition))
  | .error (.process detail) =>
    perform (.enter (.ofProcessFailure id (Failure.process detail).message))
  | .error failure => finish (.error failure.message) id

/-- Serves a request. What it has of the gate is given back only after its end. -/
def serve (settings : Settings) (host : Host) (command : Command) (r : Request) :
    Program Unit := do
  perform .turn
  let result ← (Action.ofCommand settings host r command).run
  conclude r.id result
  perform .releaseGate

/-- Refreshes the prompt after an interrupt, unless the gate stays busy. -/
def refreshAfterInterrupt (settings : Settings) : Program Unit := do
  perform .turn
  if ← perform (.lockGateWithin settings.promptTimeout) then
    let _ ← Action.refreshPrompt.run
    perform .releaseGate
  else return ()

/-- Delivers text to a pending read, and shows that the interpreter reads on. -/
def deliverInput (text : String) : Program Unit := do
  perform .turn
  match ← ask (.input text) with
  | .ok _ => event .readString
  | .error _ => return ()

end Program

/-- The editor's name for the thread of the REPL. -/
def replThread : String := ":repl-thread"

/-- What a payload calls for. -/
inductive Delivery where
  | serve (command : Command) (r : Request)
  /-- An interrupt at once, and perhaps a task that refreshes the prompt. -/
  | interrupt (refreshes : Bool)
  /-- A task that delivers text to the interpreter. -/
  | input (text : String)
  /-- A result that tells why there is no request to serve. -/
  | refuse (id : RequestId) (reason : String)
  /-- Nothing: there is no request to answer. -/
  | ignore
  /-- The reader fails on the payload. -/
  | crash
deriving DecidableEq, Repr

def Delivery.ofPayload (payload : String) : Delivery :=
  match Inbound.ofPayload payload with
  | .ok (.request r) =>
    match Command.ofTag r.tag with
    | .ok command => .serve command r
    | .error failure => .refuse r.id failure.message
  | .ok (.interrupt thread) => .interrupt (thread.isSymbol replThread)
  | .ok (.input _ _ text) => .input text
  | .error fault =>
    match salvage payload with
    | .found id => .refuse id fault.failure.message
    | .nothing => .ignore
    | .splitCharacter => .crash

end LispBridge
