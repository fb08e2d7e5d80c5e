/-!
Failures: what can go wrong anywhere between editor and interpreter, and the text that reports it.
-/

namespace LispBridge

/-- A condition that the interpreter raised. -/
structure Condition where
  message : String
  /-- Descriptions of the stack frames, innermost first. -/
  stack : List String := []
  /-- Whether the interpreter can neither continue nor return to its top level. -/
  fatal : Bool := false
deriving DecidableEq, Repr, Inhabited

/-- Why something could not be done. -/
inductive Failure where
  /-- The configuration cannot be used. -/
  | config (detail : String)
  /-- The bytes from the editor are not a sequence of frames. -/
  | framing (detail : String)
  /-- A payload has not the shape of a message. -/
  | malformed (detail : String)
  | unknownCommand (tag : String)
  | abort (message : Option String)
  | interpreter (condition : Condition)
  /-- The interpreter's process failed. -/
  | process (detail : String)
  /-- A file or a socket failed. -/
  | io (detail : String)
deriving DecidableEq, Repr, Inhabited

namespace Failure

/-- The text that reports a failure. -/
def message : Failure → String
  | config detail => s!"config: {detail}"
  | framing detail => s!"framing: {detail}"
  | malformed detail => s!"malformed message: {detail}"
  | unknownCommand tag => s!"unknown command: {tag}"
  | abort (some detail) => s!"abort: {detail}"
  | abort none => "abort"
  | interpreter condition =>
    if condition.fatal then s!"fatal interpreter error: {condition.message}"
    else s!"interpreter error: {condition.message}"
  | process detail => s!"process: {detail}"
  | io detail => s!"io: {detail}"

/-- Whether a connection cannot go on after a failure. -/
def endsConnection : Failure → Bool
  | framing _ | io _ => true
  | _ => false

end Failure

end LispBridge
