import LispBridge.Datum.Basic
import LispBridge.Failure
import LispBridge.Relay

/-!
What the server asks of an interpreter, and what it gets for an answer.
-/

namespace LispBridge

/-- The channel of the interpreter that a command runs on. -/
inductive Channel where
  /-- Beside the REPL, for introspection. -/
  | internal
  /-- In the REPL, where its state can be seen and changed. -/
  | repl
deriving DecidableEq, Repr

/-- Something that is asked of an interpreter and takes time. -/
inductive Call where
  | start
  | stop
  /-- Back to the top level. -/
  | reset
  | eval (code : String)
  | command (text : String) (channel : Channel)
  /-- Describes the innermost stack frames, at most `depth` of them. -/
  | callStack (depth : Nat)
  /-- Delivers text to a pending read. -/
  | input (text : String)
deriving DecidableEq, Repr

/-- What a call yields if it succeeds. An evaluation yields the output that belongs to its
result; what it prints meanwhile goes to the relay. -/
@[reducible] def Call.Yield : Call → Type
  | .start | .stop | .reset | .input _ => Unit
  | .eval _ => List Chunk
  | .command .. => Datum
  | .callStack _ => List String

/-- The answer to a call. -/
abbrev Call.Answer (c : Call) : Type :=
  Except Failure c.Yield

end LispBridge
