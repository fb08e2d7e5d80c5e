import LispBridge.Message.Inbound
import LispBridge.Text.Blank

/-!
Recovering the id of a request that cannot be read, so that it can still be answered.

A payload that reads as data gives the last element of a request. One that does not, for example
because it is nested too deeply, gives its last token, if it starts and ends like a request.
-/

namespace LispBridge

/-- What recovering an id comes to. -/
inductive Salvage where
  | found (id : RequestId)
  | nothing
  /-- The last token lies behind a blank of more than one byte, so that the byte after the blank's
  first is not the start of a character. -/
  | splitCharacter
deriving DecidableEq, Repr

namespace Salvage

/-- Recovers the id from a value that spells a request. -/
def ofDatum (d : Datum) : Salvage :=
  match d.asList? with
  | some (kind :: elements) =>
    if kind.isSymbol ":emacs-rex" then
      match ((kind :: elements).getLast?).bind Datum.asInt? with
      | some id => .found id
      | none => .nothing
    else .nothing
  | _ => .nothing

/-- The opening of every request. -/
def opening : List Char := "(:emacs-rex".toList

/-- Whether a text opens like a request, in any case. -/
def opensRequest (cs : List Char) : Bool :=
  (cs.take opening.length).map Char.toLower = opening

/-- Whether a character ends the token in front of it. -/
def isSeparator (c : Char) : Bool :=
  Text.isBlank c || c = ')'

/-- The integer that the last token of a request's body spells. -/
def ofBody (body : List Char) : Salvage :=
  let token := (body.reverse.takeWhile fun c => !isSeparator c).reverse
  match body.reverse.dropWhile fun c => !isSeparator c with
  | [] => .nothing
  | separator :: _ =>
    if Utf8.charLength separator ≠ 1 then .splitCharacter
    else
      match readInt64? token with
      | some id => .found id
      | none => .nothing

/-- Recovers the id from a text that opens and closes like a request. -/
def ofText (payload : String) : Salvage :=
  let text := Text.trimChars payload.toList
  if opensRequest text then
    match text.reverse with
    | ')' :: r => ofBody (r.dropWhile Text.isBlank).reverse
    | _ => .nothing
  else .nothing

end Salvage

/-- Recovers the id of a payload that is not a message. -/
def salvage (payload : String) : Salvage :=
  match Datum.read payload with
  | .ok d => .ofDatum d
  | .error _ => .ofText payload

end LispBridge
