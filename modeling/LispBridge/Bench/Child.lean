import LispBridge.Text.Search
import LispBridge.Text.Utf8

/-!
A scripted process: what it writes when it starts, for each line that it reads, and when it is
interrupted.
-/

namespace LispBridge

/-- Something that a scripted process does. -/
inductive ChildAction where
  /-- Writes a line; the line that was read can be quoted in it. -/
  | say (text : String)
  | write (bytes : List UInt8)
  /-- Writes a line of diagnostics. -/
  | complain (text : String)
  | exit
deriving DecidableEq, Repr

/-- What a scripted process does. -/
structure ChildScript where
  tellsArguments : Bool := false
  tellsDirectory : Bool := false
  startup : List ChildAction := []
  replies : List (List ChildAction) := []
  otherReply : List ChildAction := []
  /-- What it does on an interrupt, if it survives one. -/
  onInterrupt : Option (List ChildAction) := none
deriving DecidableEq, Repr

/-- A scripted process. -/
structure Child where
  script : ChildScript
  isAlive : Bool := true
deriving DecidableEq, Repr

/-- What a process writes. -/
structure ChildOutput where
  bytes : List UInt8 := []
  complaints : List String := []
deriving DecidableEq, Repr

namespace ChildOutput

/-- One output after another. -/
def append (a b : ChildOutput) : ChildOutput :=
  ⟨a.bytes ++ b.bytes, a.complaints ++ b.complaints⟩

/-- A text, and a line feed. -/
def line (text : String) : ChildOutput :=
  { bytes := Utf8.encode (text ++ "\n") }

end ChildOutput

/-- The place in a text where the line that was read is quoted. -/
def quotedLine : String :=
  "\x7bline\x7d"

/-- The lines of a text. A line feed at its end begins no other, and a carriage return in front of
a line feed does not count. -/
def textLines (text : String) : List String :=
  let pieces := text.splitOn "\n"
  let pieces := if text.endsWith "\n" then pieces.dropLast else pieces
  pieces.map fun p => if p.endsWith "\r" then (p.dropEnd 1).toString else p

namespace Child

/-- Does something. A process that has exited does nothing more. -/
def act (line : String) (c : Child) (a : ChildAction) : Child × ChildOutput :=
  if !c.isAlive then (c, {})
  else
    match a with
    | .say text => (c, .line (text.replace quotedLine line))
    | .write bytes => (c, { bytes })
    | .complain text => (c, { complaints := textLines (text ++ "\n") })
    | .exit => ({ c with isAlive := false }, {})

/-- Does several things. -/
def actAll (line : String) (c : Child) (as : List ChildAction) : Child × ChildOutput :=
  as.foldl (fun (c, out) a =>
    let (c, more) := c.act line a
    (c, out.append more)) (c, {})

/-- Starts a process. What it tells of itself is written as it is: there is no line to quote. -/
def start (script : ChildScript) (arguments : List String) (directory : String) :
    Child × ChildOutput :=
  let told (b : Bool) (text : String) : List ChildAction :=
    if b then [.write (Utf8.encode (text ++ "\n"))] else []
  actAll "" { script } (told script.tellsArguments ("argv: " ++ " ".intercalate arguments) ++
    told script.tellsDirectory ("cwd: " ++ directory) ++ script.startup)

def read (c : Child) (line : String) : Child × ChildOutput :=
  match c.script.replies with
  | [] => c.actAll line c.script.otherReply
  | reply :: replies => { c with script := { c.script with replies } }.actAll line reply

def readAll (c : Child) (lines : List String) : Child × ChildOutput :=
  lines.foldl (fun (c, out) line =>
    let (c, more) := c.read line
    (c, out.append more)) (c, {})

def interrupt (c : Child) : Child × ChildOutput :=
  match c.script.onInterrupt with
  | some actions => c.actAll "" actions
  | none => ({ c with isAlive := false }, {})

def kill (c : Child) : Child :=
  { c with isAlive := false }

end Child

end LispBridge
