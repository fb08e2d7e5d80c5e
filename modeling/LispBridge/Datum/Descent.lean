import LispBridge.Datum.Reader
import LispBridge.Text.Search

/-!
Reading data by recursive descent over the bytes of a text.

The functions here call one another as constructs nest, and move a cursor that counts bytes. They
say what `Reader` does one character at a time: where the cursor is between any two constructs, and
which part of the text each of them takes. Nothing is assumed about the cursor. The text is cut at
it, and the cut fails if the byte there is inside a character or beyond the end.

Nor is it assumed that the functions come to an end. Those that call themselves take a number, which
is how many calls may be inside each other; with more of them they come to nothing.

* `Descent.Parser`: what such a function does.
* `Descent.skipAtmosphere`, `readToken`, `readString`: loops over characters.
* `Descent.read`, `readList`, `readPrefixed`, `readDispatch`: values.
* `Descent.readForms`, `Descent.readOnly`: whole texts.
-/

namespace LispBridge

namespace Descent

/-- How far reading has come: bytes behind the start of the text, and constructs entered. -/
structure Cursor where
  offset : Nat := 0
  depth : Nat := 0
deriving DecidableEq, Repr

/-- Why reading stops before its end. -/
inductive Stop where
  /-- The text cannot be read. -/
  | fault (fault : ReadFault)
  /-- The text was to be cut at a byte that is not between two characters. -/
  | split (offset : Nat)
deriving DecidableEq, Repr

/-- Something that reads on from a cursor. It comes to nothing at all if too many calls are inside
each other. -/
abbrev Parser (α : Type) : Type :=
  StateT Cursor (ExceptT Stop Option) α

/-- A call inside too many others. -/
def beyond {α : Type} : Parser α :=
  fun _ => none

/-! ### The cursor -/

def fault {α : Type} (f : ReadFault) : Parser α :=
  throw (.fault f)

def split {α : Type} (offset : Nat) : Parser α :=
  throw (.split offset)

def getOffset : Parser Nat :=
  return (← get).offset

def advance (bytes : Nat) : Parser Unit :=
  modify fun c => { c with offset := c.offset + bytes }

/-- Enters a construct, unless too many have been entered already. -/
def enter : Parser Unit := do
  modify fun c => { c with depth := c.depth + 1 }
  let c ← get
  if maxDepth < c.depth then fault (.tooDeep c.offset)

def leave : Parser Unit :=
  modify fun c => { c with depth := c.depth - 1 }

variable (text : List Char)

/-- The text behind the cursor. -/
def rest : Parser (List Char) := do
  let offset ← getOffset
  match Utf8.dropBytes? offset text with
  | some cs => return cs
  | none => split offset

/-- The text from a byte up to the cursor. -/
def textFrom (start : Nat) : Parser String := do
  let stop ← getOffset
  match Utf8.dropBytes? start text with
  | none => split start
  | some cs =>
    if stop < start then split stop
    else
      match Utf8.takeBytes? (stop - start) cs with
      | none => split stop
      | some ds => return String.ofList ds

def peek : Parser (Option Char) :=
  return (← rest text).head?

def startsWith (start : List Char) : Parser Bool :=
  return start.isPrefixOf (← rest text)

/-- Takes the next character, if there is one. -/
def bump : Parser (Option Char) := do
  match ← peek text with
  | none => return none
  | some c =>
    advance (Utf8.charLength c)
    return some c

/-! ### Loops over characters -/

/-- Passes the rest of a line. -/
def skipLine : Nat → Parser Unit
  | 0 => beyond
  | n + 1 => do
    match ← bump text with
    | none => return
    | some c => if c = '\n' then return else skipLine n

/-- Passes a block comment, or the rest of the text if it does not end. -/
def skipBlock : Parser Unit := do
  advance 2
  let cs ← rest text
  match Text.firstIndex? ['|', '#'] cs with
  | some i => advance (Utf8.byteLength (cs.take i) + 2)
  | none => modify fun c => { c with offset := Utf8.byteLength text }

/-- Passes white space and comments. -/
def skipAtmosphere : Nat → Parser Unit
  | 0 => beyond
  | n + 1 => do
    match ← peek text with
    | none => return
    | some c =>
      if Text.isBlank c then
        let _ ← bump text
        skipAtmosphere n
      else if c = ';' then
        skipLine text n
        skipAtmosphere n
      else if c = '#' then
        if ← startsWith text ['#', '|'] then
          skipBlock text
          skipAtmosphere n
        else return
      else return

/-- Passes the rest of a token. -/
def skipToken : Nat → Parser Unit
  | 0 => beyond
  | n + 1 => do
    match ← peek text with
    | none => return
    | some c =>
      if Datum.isDelimiter c then return
      else
        let _ ← bump text
        skipToken n

def readToken (n : Nat) : Parser String := do
  let start ← getOffset
  skipToken text n
  textFrom text start

/-- Reads a string literal behind its opening quote. What has been read of its content is kept last
character first. -/
def readString (content : List Char) : Nat → Parser String
  | 0 => beyond
  | n + 1 => do
    match ← bump text with
    | none => fault .unterminatedString
    | some '"' => return String.ofList content.reverse
    | some '\\' =>
      match ← bump text with
      | none => fault .unterminatedString
      | some c => readString (Reader.unescape c :: content) n
    | some c => readString (c :: content) n

/-! ### Values -/

mutual

/-- Reads the next value, if there is one. -/
def read : Nat → Parser (Option Datum)
  | 0 => beyond
  | n + 1 => do
    skipAtmosphere text n
    match ← peek text with
    | none => return none
    | some c => return some (← readValue c n)

/-- Reads the value that a character begins. -/
def readValue (c : Char) : Nat → Parser Datum
  | 0 => beyond
  | n + 1 => do
    match c with
    | '(' =>
      let _ ← bump text
      readList n
    | ')' => fault (.unexpectedClose (← getOffset))
    | '"' =>
      let _ ← bump text
      return .str (← readString text [] n)
    | '\'' => readPrefixed 1 "quote" n
    | '`' => readPrefixed 1 "quasiquote" n
    | ',' =>
      if ← startsWith text [',', '@'] then readPrefixed 2 "unquote-splicing" n
      else readPrefixed 1 "unquote" n
    | '#' =>
      if ← startsWith text ['#', '\''] then readPrefixed 2 "function" n
      else readDispatch n
    | _ => return .ofToken (← readToken text n).toList

/-- Reads the value that a prefix of some bytes stands in front of. -/
def readPrefixed (bytes : Nat) (head : String) : Nat → Parser Datum
  | 0 => beyond
  | n + 1 => do
    advance bytes
    enter
    match ← read n with
    | none => fault (.missingForm head)
    | some d =>
      leave
      return .list [.symbol head, d]

/-- Reads a list, or the body of a vector, behind its opening parenthesis. -/
def readList : Nat → Parser Datum
  | 0 => beyond
  | n + 1 => do
    enter
    readItems [] n

/-- Reads the rest of a list. The elements read so far are kept last first. -/
def readItems (items : List Datum) : Nat → Parser Datum
  | 0 => beyond
  | n + 1 => do
    skipAtmosphere text n
    match ← peek text with
    | none => fault .unterminatedList
    | some ')' =>
      let _ ← bump text
      leave
      return .ofItems items.reverse
    | some _ =>
      match ← read n with
      | some d => readItems (d :: items) n
      | none => readItems items n

/-- Reads a character, a vector or another token that starts with `#`. Each of them stands for its
own text. -/
def readDispatch : Nat → Parser Datum
  | 0 => beyond
  | n + 1 => do
    let start ← getOffset
    let _ ← bump text
    match ← peek text with
    | some '\\' =>
      let _ ← bump text
      let _ ← bump text
      let _ ← readToken text n
      return .symbol (← textFrom text start)
    | _ =>
      let _ ← readToken text n
      match ← peek text with
      | some '(' =>
        let _ ← bump text
        let _ ← readList n
        return .symbol (← textFrom text start)
      | _ => return .symbol (← textFrom text start)

end

/-! ### Whole texts -/

/-- Reads every form that is left. The forms read so far are kept last first. -/
def readForms (forms : List Datum) : Nat → Parser (List Datum)
  | 0 => beyond
  | n + 1 => do
    match ← read text n with
    | some d => readForms (d :: forms) n
    | none => return forms.reverse

/-- Reads the only form of the text. -/
def readOnly (n : Nat) : Parser Datum := do
  match ← read text n with
  | none => fault .emptyInput
  | some d =>
    skipAtmosphere text n
    let offset ← getOffset
    if offset < Utf8.byteLength text then fault (.trailingData offset)
    return d

end Descent

end LispBridge
