import LispBridge.Session.Program

/-!
Prompts and restarts: the programs that ask for the prompt and that leave debugger levels.
-/

namespace LispBridge

/-- The command that yields the package and the prompt. -/
def promptCommand : String := "(slime::slime-prompt)"

namespace Action

/-- Asks for the prompt and remembers it. -/
def fetchPrompt : Action (Option Package) := do
  let value ← ask (.command promptCommand .repl)
  match Package.ofDatum? value with
  | none => return none
  | some p =>
    Program.perform (.setPackage p)
    return some p

/-- Asks for the prompt and tells the editor. -/
def refreshPrompt : Action Unit := do
  match ← fetchPrompt with
  | none => return ()
  | some p => Program.event p.event

end Action

namespace Program

/-- The result of a request whose debugger level was left. -/
def unwoundResult (settings : Settings) (l : Level) : Response :=
  .result (.abort (some (headline l.message settings.delimiter))) l.id

/-- What is told of levels that were left: that each is closed, and the result it owed. -/
def unwoundMessages (settings : Settings) (levels : List (Nat × Level)) : List Response :=
  levels.flatMap fun (n, l) => [.event (.debugReturn n), unwoundResult settings l]

/-- Replaces the interpreter by a new one. -/
def restartInterpreter : Program Unit := do
  match ← ask .stop with
  | .error _ => return ()
  | .ok _ =>
    let _ ← ask .start
    return ()

/-- What a restart does to the interpreter. Its failures are not the request's. -/
def applyRestart : Option Restart → Program Unit
  | some .quit => do
    let _ ← ask .reset
    return ()
  | some .restart => do
    restartInterpreter
    let _ ← discardOutput
    return ()
  | some .continue | none => return ()

end Program

namespace Action

/-- The event that tells of a prompt that could be fetched. -/
def promptMessages : Except Failure (Option Package) → List Response
  | .ok (some p) => [.event p.event]
  | .ok none | .error _ => []

/-- Leaves a debugger level. The messages that precede the result of the request are queued; those
that follow it are returned. -/
def invokeRestart (settings : Settings) (number index : Nat) : Action (List Response) := do
  match ← Program.perform (.resolve number index) with
  | none => throw (.malformed s!"no debugger level {number} is active")
  | some r =>
    Program.emitAll (Program.unwoundMessages settings r.above)
    Program.applyRestart r.action
    Program.event (.debugReturn number)
    let prompt ← fetchPrompt.attempt
    return promptMessages prompt ++ Program.unwoundResult settings r.level ::
      Program.unwoundMessages settings r.below

/-- Leaves the innermost level by its first restart; nothing is returned outside the debugger. -/
def throwToToplevel (settings : Settings) : Action (Option (List Response)) := do
  let depth ← Program.perform .depth
  if depth = 0 then return none
  else return some (← invokeRestart settings depth 0)

end Action

end LispBridge
