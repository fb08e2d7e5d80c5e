import LispBridge.Datum.Printer
import LispBridge.Datum.Reader
import LispBridge.Failure
import LispBridge.Text.Quoted

/-!
Lines of an interpreter's output: replies, which start with a delimiter, and everything else.
-/

namespace LispBridge

/-- What a line of output means. -/
inductive ReplyLine where
  /-- Output of the user's program. -/
  | output (text : String)
  | ready
  | printed (text : String)
  | ok (value : Datum)
  | abort (message : Option String)
  | raised (condition : Condition)
deriving DecidableEq, Repr

/-- Why a line that starts with the delimiter is no reply. -/
inductive ReplyFault where
  | unreadable (text : String) (fault : ReadFault)
  | unrecognised (reply : Datum)
deriving DecidableEq, Repr

def ReplyFault.message : ReplyFault → String
  | unreadable text fault =>
    s!"unreadable reply {Text.quoted text}: {(Failure.malformed fault.message).message}"
  | unrecognised reply => s!"unrecognised reply {reply.wire}"

namespace ReplyLine

/-- A value as a description: the content of a string, or else the printed value. -/
def description : Datum → String
  | .str s => s
  | d => d.wire

/-- The descriptions of the elements of a list; anything else has none. -/
def descriptions (d : Datum) : List String :=
  (d.asList?.getD []).map description

/-- The reply that a value spells. -/
def ofDatum (d : Datum) : Option ReplyLine :=
  match d.asList?.getD [] with
  | [tag] => if tag.isSymbol ":ready" then some .ready else none
  | [tag, x] =>
    if tag.isSymbol ":ok" then some (.ok x)
    else if tag.isSymbol ":repl-result" ∧ x.asStr?.isSome then x.asStr?.map .printed
    else if tag.isSymbol ":abort" then some (.abort x.asStr?)
    else none
  | [tag, message, stack, fatal] =>
    if tag.isSymbol ":error" then
      some (.raised ⟨description message, descriptions stack, fatal.isTruthy⟩)
    else none
  | _ => none

/-- What a line means: with the delimiter in front it must be a reply. -/
def classify (delimiter line : String) : Except ReplyFault ReplyLine :=
  match delimiter.toList.isPrefixOf? line.toList with
  | none => .ok (.output line)
  | some rest =>
    let text := String.ofList rest
    match Datum.read text with
    | .error fault => .error (.unreadable text fault)
    | .ok d =>
      match ofDatum d with
      | some reply => .ok reply
      | none => .error (.unrecognised d)

/-- What a line means; a faulty reply is a failure of the interpreter's process. -/
def ofLine (delimiter line : String) : Except Failure ReplyLine :=
  (classify delimiter line).mapError fun fault => .process fault.message

end ReplyLine

end LispBridge
