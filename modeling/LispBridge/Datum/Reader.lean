import LispBridge.Datum.Atom
import LispBridge.Text.Utf8

/-!
Reading data from text, one character at a time.

The reader is a machine that is fed every character once (`Reader.step`) and asked for its forms at
the end (`Reader.finish`). Its state holds what has been read, the construct that the next
character continues (`Mode`), and the constructs that are still open around it (`Open`).

* `Datum.readAll`: every form of a text.
* `Datum.read`: the only form of a text.
* `ReadFault`: why a text cannot be read, with byte offsets into it.
-/

namespace LispBridge

/-- The largest number of constructs that may be open at once. -/
def maxDepth : Nat := 512

/-- Why a text cannot be read. Offsets count bytes from the start of the text. -/
inductive ReadFault where
  | emptyInput
  | trailingData (offset : Nat)
  | unexpectedClose (offset : Nat)
  | tooDeep (offset : Nat)
  | unterminatedList
  | unterminatedString
  | missingForm (head : String)
deriving DecidableEq, Repr

def ReadFault.message : ReadFault → String
  | .emptyInput => "empty input"
  | .trailingData offset => s!"trailing data at byte {offset}"
  | .unexpectedClose offset => s!"unexpected ')' at byte {offset}"
  | .tooDeep offset => s!"nesting too deep at byte {offset}"
  | .unterminatedList => "unterminated list"
  | .unterminatedString => "unterminated string"
  | .missingForm head => s!"missing form after {head}"

namespace Reader

/-- A construct whose end has not been read yet. -/
inductive Open where
  /-- A list, with its elements so far, last first. -/
  | list (items : List Datum)
  /-- A quote character or one of its kin, which waits for one form. -/
  | prefixed (head : String)
  /-- A vector, which begins after `start` characters of the text. -/
  | vector (start : Nat)
deriving DecidableEq, Repr

/-- What the next character continues. Contents are kept last character first. -/
inductive Mode where
  /-- Nothing: it is a blank or begins something. -/
  | between
  | lineComment
  /-- A block comment; `bar` tells whether its last character may begin the end mark. -/
  | blockComment (bar : Bool)
  | string (content : List Char) (escaped : Bool)
  | token (content : List Char)
  /-- A `#` that may begin a comment, a prefix, a character or a token. -/
  | hash
  /-- A token that starts with `#`, and may be the prefix of a vector. -/
  | hashToken (content : List Char)
  /-- `#\`, which takes any character. -/
  | character
  /-- A token that stands for itself. -/
  | name (content : List Char)
  /-- A comma that an `@` may follow. -/
  | comma
deriving DecidableEq, Repr

/-- The state of the reader. -/
structure State where
  /-- The characters read, last first. -/
  seen : List Char := []
  count : Nat := 0
  mode : Mode := .between
  /-- The constructs that are open, innermost first. -/
  enclosing : List Open := []
  /-- The forms read at top level, last first. -/
  forms : List Datum := []
deriving DecidableEq, Repr

/-- The byte offset of the next character. -/
def State.offset (s : State) : Nat :=
  Utf8.byteLength s.seen

/-- Notes a character as read, and what the next one continues. -/
def State.read (s : State) (c : Char) (mode : Mode) : State :=
  { s with seen := c :: s.seen, count := s.count + 1, mode }

/-! ### Complete values -/

/-- Puts a complete value where it belongs: into the innermost list, into the form that a prefix
waits for, or among the forms of the text. The elements of a vector are dropped, since the vector
stands for its own text. -/
def place (d : Datum) (forms : List Datum) : List Open → List Open × List Datum
  | [] => ([], d :: forms)
  | .list items :: r => (.list (d :: items) :: r, forms)
  | .vector start :: r => (.vector start :: r, forms)
  | .prefixed head :: r => place (.list [.symbol head, d]) forms r

/-- Ends the value being read. -/
def State.accept (s : State) (d : Datum) : State :=
  let (enclosing, forms) := place d s.forms s.enclosing
  { s with mode := .between, enclosing, forms }

/-- Opens a construct, unless too many are open already. -/
def State.enter (s : State) (o : Open) : Except ReadFault State :=
  if s.enclosing.length < maxDepth then
    .ok { s with mode := .between, enclosing := o :: s.enclosing }
  else
    .error (.tooDeep s.offset)

/-- The last `s.count - start` characters as a symbol. -/
def State.textFrom (s : State) (start : Nat) : Datum :=
  .symbol (String.ofList (s.seen.take (s.count - start)).reverse)

def State.close (s : State) (c : Char) : Except ReadFault State :=
  match s.enclosing with
  | .list items :: r =>
    .ok (({ s.read c .between with enclosing := r } : State).accept (.ofItems items.reverse))
  | .vector start :: r =>
    let s := { s.read c .between with enclosing := r }
    .ok (s.accept (s.textFrom start))
  | _ => .error (.unexpectedClose s.offset)

/-! ### Characters -/

/-- Whether the text may hold no further form: with `single`, one form is all. -/
def State.isFull (s : State) (single : Bool) : Bool :=
  single && s.enclosing.isEmpty && !s.forms.isEmpty

/-- Reads a character that continues nothing. -/
def State.begin (s : State) (single : Bool) (c : Char) : Except ReadFault State :=
  if Text.isBlank c then .ok (s.read c .between)
  else if c = ';' then .ok (s.read c .lineComment)
  else if c = '#' then .ok (s.read c .hash)
  else if s.isFull single then .error (.trailingData s.offset)
  else
    match c with
    | '(' => (s.read c .between).enter (.list [])
    | ')' => s.close c
    | '"' => .ok (s.read c (.string [] false))
    | '\'' => (s.read c .between).enter (.prefixed "quote")
    | '`' => (s.read c .between).enter (.prefixed "quasiquote")
    | ',' => .ok (s.read c .comma)
    | c => .ok (s.read c (.token [c]))

/-- Reads a character after a token that starts with `#`. -/
def State.hashToken (s : State) (single : Bool) (content : List Char) (c : Char) :
    Except ReadFault State :=
  if c = '(' then (s.read c .between).enter (.vector (s.count - content.length))
  else if Datum.isDelimiter c then
    (s.accept (.symbol (String.ofList content.reverse))).begin single c
  else .ok (s.read c (.hashToken (c :: content)))

/-- The character that an escape in a string stands for. -/
def unescape : Char → Char
  | 'n' => '\n'
  | 't' => '\t'
  | c => c

/-- Reads one character. With `single`, a second form is a fault. -/
def State.step (single : Bool) (s : State) (c : Char) : Except ReadFault State :=
  match s.mode with
  | .between => s.begin single c
  | .lineComment => .ok (s.read c (if c = '\n' then .between else .lineComment))
  | .blockComment bar =>
    .ok (s.read c (if bar ∧ c = '#' then .between else .blockComment (c = '|')))
  | .string content true => .ok (s.read c (.string (unescape c :: content) false))
  | .string content false =>
    if c = '"' then .ok ((s.read c .between).accept (.str (String.ofList content.reverse)))
    else if c = '\\' then .ok (s.read c (.string content true))
    else .ok (s.read c (.string (c :: content) false))
  | .token content =>
    if Datum.isDelimiter c then (s.accept (.ofToken content.reverse)).begin single c
    else .ok (s.read c (.token (c :: content)))
  | .hash =>
    if c = '|' then .ok (s.read c (.blockComment false))
    else if s.isFull single then .error (.trailingData (s.offset - 1))
    else if c = '\'' then (s.read c .between).enter (.prefixed "function")
    else if c = '\\' then .ok (s.read c .character)
    else s.hashToken single ['#'] c
  | .hashToken content => s.hashToken single content c
  | .character => .ok (s.read c (.name [c, '\\', '#']))
  | .name content =>
    if Datum.isDelimiter c then
      (s.accept (.symbol (String.ofList content.reverse))).begin single c
    else .ok (s.read c (.name (c :: content)))
  | .comma =>
    if c = '@' then (s.read c .between).enter (.prefixed "unquote-splicing")
    else do (← s.enter (.prefixed "unquote")).begin single c

/-- Ends what the end of the text ends. -/
def State.flush (single : Bool) (s : State) : Except ReadFault State :=
  match s.mode with
  | .between | .lineComment | .blockComment _ => .ok s
  | .string .. => .error .unterminatedString
  | .token content => .ok (s.accept (.ofToken content.reverse))
  | .hash =>
    if s.isFull single then .error (.trailingData (s.offset - 1)) else .ok (s.accept (.symbol "#"))
  | .hashToken content | .name content => .ok (s.accept (.symbol (String.ofList content.reverse)))
  | .character => .ok (s.accept (.symbol "#\\"))
  | .comma => s.enter (.prefixed "unquote")

/-- The forms of the text, if nothing is left open. -/
def State.finish (single : Bool) (s : State) : Except ReadFault (List Datum) := do
  let s ← s.flush single
  match s.enclosing with
  | [] => .ok s.forms.reverse
  | .prefixed head :: _ => .error (.missingForm head)
  | .list _ :: _ | .vector _ :: _ => .error .unterminatedList

/-- Reads characters until the first fault. -/
def State.run (single : Bool) (s : State) : List Char → Except ReadFault State
  | [] => .ok s
  | c :: cs =>
    match s.step single c with
    | .ok s => s.run single cs
    | .error fault => .error fault

def forms (single : Bool) (cs : List Char) : Except ReadFault (List Datum) := do
  (← State.run single {} cs).finish single

end Reader

namespace Datum

/-- Every form of a text. -/
def readAll (s : String) : Except ReadFault (List Datum) :=
  Reader.forms false s.toList

/-- The only form of a text. -/
def read (s : String) : Except ReadFault Datum := do
  match ← Reader.forms true s.toList with
  | [] => .error .emptyInput
  | d :: _ => .ok d

end Datum

end LispBridge
