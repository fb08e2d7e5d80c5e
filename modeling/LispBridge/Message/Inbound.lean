import LispBridge.Datum.Printer
import LispBridge.Datum.Reader
import LispBridge.Failure

/-!
Messages from the editor.

* `Inbound.ofPayload`: the message that a payload carries, or why it carries none.
* `MessageFault`: those reasons, with their texts.
-/

namespace LispBridge

/-- The number by which the editor tells its requests apart. -/
abbrev RequestId := Int64

/-- A request to run a command. -/
structure Request where
  /-- The command's tag, in lower case. -/
  tag : String
  args : List Datum
  /-- The package that the editor takes to be current. -/
  package : Option String
  /-- The editor's name for the thread that asks. -/
  thread : Datum
  id : RequestId
deriving DecidableEq, Repr

/-- A message from the editor. -/
inductive Inbound where
  | request (r : Request)
  | interrupt (thread : Datum)
  /-- Text that the user typed for a pending read. -/
  | input (thread tag : Datum) (text : String)
deriving DecidableEq, Repr

/-- Why a payload is not a message. -/
inductive MessageFault where
  | unreadable (fault : ReadFault)
  | notTaggedList
  | kindNotSymbol
  | unsupportedKind (kind : String)
  | interruptShape
  | inputShape
  | requestShape (elements : Nat)
  | idNotInteger (id : Datum)
  | formNotList
  | tagNotSymbol (tag : Datum)
deriving DecidableEq, Repr

def MessageFault.message : MessageFault → String
  | unreadable fault => fault.message
  | notTaggedList => "message is not a tagged list"
  | kindNotSymbol => "message kind must be a symbol"
  | unsupportedKind kind => s!"unsupported message kind {kind}"
  | interruptShape => ":emacs-interrupt expects one argument"
  | inputShape => ":emacs-return-string expects thread, tag and string"
  | requestShape elements => s!":emacs-rex expects 4 elements, got {elements}"
  | idNotInteger id => s!"request id {id.wire} is not an integer"
  | formNotList => "request form must be a non-empty list"
  | tagNotSymbol tag => s!"command tag {tag.wire} is not a symbol"

/-- A payload that is not a message is malformed. -/
def MessageFault.failure (f : MessageFault) : Failure :=
  .malformed f.message

namespace Request

/-- The package that an element of a request names. -/
def packageName? : Datum → Option String
  | .str s | .symbol s => some s
  | _ => none

/-- Reads the elements of a request: form, package, thread and id. The id is checked first. -/
def ofElements : List Datum → Except MessageFault Request
  | [form, package, thread, id] =>
    match id.asInt? with
    | none => .error (.idNotInteger id)
    | some id =>
      match form.asList? with
      | none | some [] => .error .formNotList
      | some (tag :: args) =>
        match tag.asSymbol? with
        | none => .error (.tagNotSymbol tag)
        | some tag => .ok ⟨tag.toLower, args, packageName? package, thread, id⟩
  | elements => .error (.requestShape elements.length)

end Request

namespace Inbound

/-- Reads the elements that follow the kind of a message. -/
def ofKind (kind : String) (elements : List Datum) : Except MessageFault Inbound :=
  if kind = ":emacs-rex" then (Request.ofElements elements).map .request
  else if kind = ":emacs-interrupt" then
    match elements with
    | [thread] => .ok (.interrupt thread)
    | _ => .error .interruptShape
  else if kind = ":emacs-return-string" then
    match elements with
    | [thread, tag, .str text] => .ok (.input thread tag text)
    | _ => .error .inputShape
  else .error (.unsupportedKind kind)

/-- The message that a value spells. -/
def ofDatum (d : Datum) : Except MessageFault Inbound :=
  match d.asList? with
  | none | some [] => .error .notTaggedList
  | some (.symbol kind :: elements) => ofKind kind elements
  | some _ => .error .kindNotSymbol

def ofPayload (payload : String) : Except MessageFault Inbound :=
  match Datum.read payload with
  | .ok d => ofDatum d
  | .error fault => .error (.unreadable fault)

end Inbound

end LispBridge
