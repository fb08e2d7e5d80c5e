import LispBridge.Datum.Scope
import LispBridge.Session.Evaluation
import LispBridge.Text.Blank

/-!
Queries: requests that ask the interpreter one or two commands and answer with what it says.

* `QueryText`: the commands, as text. Strings are escaped, and forms are printed in Lisp style.
* `Action.autodoc` and the others: the requests.
-/

namespace LispBridge

/-! ### Commands -/

namespace QueryText

/-- A function of the interpreter's support package applied to a string. -/
def onString (function argument : String) : String :=
  s!"(slime::{function} \"{Datum.escape argument}\")"

/-- Asks for the argument list of a function, as seen from a cursor in a form. -/
def autodoc (function : String) (cursor : Option Nat) (form : Datum) : String :=
  let cursor := match cursor with
    | some n => toString n
    | none => Datum.lisp .nil
  s!"(slime::autodoc \"{Datum.escape function}\" {cursor} (lisp:quote {form.lisp}))"

/-- Asks for the symbols that begin with a text. -/
def findSymbol (start : String) : String :=
  onString "slime-find-symbol" start

/-- Asks for the keywords that begin with a text and suit a form. -/
def findKeyword (start : String) (form : Datum) : String :=
  s!"(slime::slime-find-keyword \"{Datum.escape start}\" (lisp:quote {form.lisp}))"

/-- Asks for the characters whose names begin with a text. -/
def findCharacter (start : String) : String :=
  onString "slime-find-character" start

/-- Asks for the description of a symbol. -/
def describe (symbol : String) : String :=
  onString "slime-describe-symbol" (Text.trim symbol)

/-- Asks for the expansion of a form, given as text. -/
def macroexpand (form : String) : String :=
  s!"(slime::slime-macroexpand (lisp:quote {form}))"

/-- Asks for the names of all packages. -/
def allPackages (nicknames : Bool) : String :=
  s!"(slime::slime-all-packages {(Datum.ofBool nicknames).lisp})"

/-- Asks for the symbols of a package whose names contain a text. -/
def apropos (key : String) (package : Datum) : String :=
  s!"(slime::slime-apropos-list \"{Datum.escape key}\" {package.lisp})"

def setPackage (name : String) : String :=
  onString "set-package" name

def changeDirectory (directory : String) : String :=
  s!"(lisp:progn (lisp:cd \"{Datum.escape directory}\") (lisp:pwd))"

end QueryText

namespace Action

/-- Asks a command beside the REPL. -/
def askInternal (text : String) : Action Datum :=
  ask (.command text .internal)

def askRepl (text : String) : Action Datum :=
  ask (.command text .repl)

/-! ### Introduction -/

/-- The text encodings that the server claims to support. -/
def encodings : List String :=
  ["utf-8-unix", "iso-latin-1-unix"]

/-- What the editor learns about the server and its interpreter. -/
def connectionData (settings : Settings) (host : Host) (version name : Datum) : Datum :=
  .plist [
    ("pid", .int host.processId),
    ("style", .nil),
    ("encoding", .plist [("coding-systems", .list (encodings.map .str))]),
    ("lisp-implementation", .plist [
      ("type", name), ("name", name), ("version", version), ("program", .nil)]),
    ("machine", .plist [("type", .str host.architecture), ("version", .str host.architecture)]),
    ("package", .plist [("name", .str settings.defaultPackage), ("prompt", name)]),
    ("version", .str settings.swankVersion)]

/-- Introduces the server to the editor. -/
def connectionInfo (settings : Settings) (host : Host) : Action Outcome := do
  let version ← askInternal "(slime::implementation-version)"
  let name ← askInternal "(lisp:pathname-name lisp:*program-name*)"
  return .ok (connectionData settings host version name)

/-- Opens the REPL: tells the prompt, and drops the output there was before. -/
def createRepl : Action Outcome := do
  let prompt ← fetchPrompt
  let _ ← Program.discardOutput
  match prompt with
  | some p => return .ok (.list [.str p.name, .str p.prompt])
  | none => return .nil

/-! ### Argument lists -/

/-- An argument list as the interpreter tells it: plain text, or a value that has to be printed. -/
def argumentList? : Except Failure Datum → Option (String × Bool)
  | .ok (.str text) => some (text, false)
  | .ok value => if value.isTruthy then some (value.wire, true) else none
  | .error _ => none

/-- Asks for the argument list of a function; failures count as not knowing it. -/
def askArgumentList (function : String) (cursor : Option Nat) (form : Datum) :
    Action (Option (String × Bool)) := do
  let answer ← attempt (askInternal (QueryText.autodoc function cursor form))
  return argumentList? answer

/-- The answer to a cursor that nothing is known about. -/
def notAvailable : Outcome :=
  .ok (.list [.keyword "not-available", .t])

/-- The function, cursor and form that a cursor in a form asks about: there is one if the mark is
behind the string that names a function. -/
def autodocQuestion? (r : Request) : Option (String × Nat × Datum) := do
  let form ← r.args[0]?
  let scope ← form.unquote.scope
  if scope.cursor = 0 then none
  else
    let function ← scope.items.head?.bind Datum.asStr?
    return (function, scope.cursor, .ofItems scope.others)

/-- The argument list of the function around the cursor. It never fails. -/
def autodoc (r : Request) : Action Outcome :=
  match autodocQuestion? r with
  | none => return notAvailable
  | some (function, cursor, form) => do
    match ← askArgumentList function (some cursor) form with
    | some (text, printed) => return .ok (.list [.str text, .ofBool printed])
    | none => return notAvailable

/-- The argument list of a function. -/
def operatorArglist (r : Request) : Action Outcome := do
  let function ← ofExcept (r.strArg 0)
  match ← askArgumentList function none .nil with
  | some (text, _) => return .ok (.str text)
  | none => return .nil

/-! ### Completion -/

/-- The form that suits a keyword at the cursor: the scope without the mark, and without the empty
string that may be its last element then. -/
def keywordForm (form : Option Datum) : Datum :=
  match form.bind fun d => d.unquote.scope with
  | none => .nil
  | some scope =>
    .ofItems (if scope.others.getLast? = some (.str "") then scope.others.dropLast
      else scope.others)

def completeSymbol (start : String) : Action Outcome :=
  .ok <$> askInternal (QueryText.findSymbol start)

def completeKeyword (start : String) (form : Option Datum) : Action Outcome :=
  .ok <$> askInternal (QueryText.findKeyword start (keywordForm form))

/-- Completes a keyword or a symbol. -/
def completions (r : Request) : Action Outcome := do
  let start ← ofExcept (r.strArg 0)
  if start.startsWith ":" then completeKeyword start none else completeSymbol start

/-- Completes a symbol. -/
def simpleCompletions (r : Request) : Action Outcome := do
  completeSymbol (← ofExcept (r.strArg 0))

/-- Completes a keyword inside a form. -/
def keywordCompletions (r : Request) : Action Outcome := do
  completeKeyword (← ofExcept (r.strArg 0)) (r.optArg? 1)

/-- Completes the name of a character. -/
def characterCompletions (r : Request) : Action Outcome := do
  let start ← ofExcept (r.strArg 0)
  .ok <$> askInternal (QueryText.findCharacter start)

/-! ### Documentation -/

def describe (r : Request) : Action Outcome := do
  let symbol ← ofExcept (r.strArg 0)
  .ok <$> askInternal (QueryText.describe symbol)

def expand (r : Request) : Action Outcome := do
  let form ← ofExcept (r.strArg 0)
  .ok <$> askInternal (QueryText.macroexpand form)

def listAllPackageNames (r : Request) : Action Outcome :=
  .ok <$> askInternal (QueryText.allPackages (r.optArg? 0).isSome)

/-- Lists the symbols whose names contain a text. The package comes quoted. -/
def aproposList (r : Request) : Action Outcome := do
  let key ← ofExcept (r.strArg 0)
  let package := ((r.optArg? 3).map Datum.unquote).getD .nil
  .ok <$> askInternal (QueryText.apropos key package)

/-! ### State of the REPL -/

/-- Changes the package, and remembers what the interpreter says it is now. -/
def setPackage (r : Request) : Action Outcome := do
  let name ← ofExcept (r.strArg 0)
  let value ← askRepl (QueryText.setPackage name)
  match Package.ofDatum? value with
  | some p => Program.perform (.setPackage p)
  | none => pure ()
  return .ok value

def defaultDirectory : Action Outcome :=
  .ok <$> askInternal "(lisp:pwd)"

def setDefaultDirectory (r : Request) : Action Outcome := do
  let directory ← ofExcept (r.strArg 0)
  .ok <$> askInternal (QueryText.changeDirectory directory)

def clearReplVariables : Action Outcome :=
  .ok <$> askRepl "(slime::clear-repl-variables)"

/-- The stack frames from one index up to another. -/
def backtrace (settings : Settings) (r : Request) : Action Outcome := do
  let start ← ofExcept (r.countArg 0)
  let stop ← ofExcept <|
    match r.optArg? 1 with
    | some _ => r.countArg 1
    | none => .ok settings.backtraceDepth
  let frames ← ask (.callStack stop)
  let start := min start frames.length
  return .ok (framesDatum (frames.drop start) start)

end Action

end LispBridge
