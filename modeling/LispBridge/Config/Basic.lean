import LispBridge.Failure
import LispBridge.Session.Basic
import LispBridge.Text.Blank

/-!
The configuration of the server. Everything has a default, so that an empty configuration is a
valid one.

* `Config.check`: what a configuration has to meet before it is used.
-/

namespace LispBridge

/-- How editors connect. -/
structure ServerConfig where
  host : String := "127.0.0.1"
  /-- The port to listen on; 0 picks a free one. -/
  port : UInt16 := 4005
  portFile : Option String := none
  /-- Whether more editors are served after the first. -/
  staysOpen : Bool := false
  /-- How long, in milliseconds, requests may go on after their connection has ended. -/
  grace : Nat := 1000
deriving DecidableEq, Repr

/-- How the interpreter is started. -/
structure InterpreterConfig where
  program : String := "irteusgl"
  arguments : List String := []
  /-- The file that makes the interpreter reply; it is the last argument. -/
  initFile : Option String := none
  workingDirectory : Option String := none
  delimiter : String := ";;euslime;; "
  /-- How long, in seconds, the interpreter may take to start. -/
  startupTimeout : Nat := 30
deriving DecidableEq, Repr

/-- How a session behaves. -/
structure SessionConfig where
  /-- How long, in milliseconds, an interrupt waits for the gate to refresh the prompt. -/
  promptTimeout : Nat := 2000
  defaultPackage : String := "USER"
  swankVersion : String := "2.20"
  backtraceDepth : Nat := 100
deriving DecidableEq, Repr

/-- The configuration of the server. -/
structure Config where
  server : ServerConfig := {}
  interpreter : InterpreterConfig := {}
  session : SessionConfig := {}
deriving DecidableEq, Repr

/-- Why a file cannot be read or written: the text of the error, and its number if it is one of
the system. -/
structure FileFault where
  text : String
  number : Option Nat := none
deriving DecidableEq, Repr

namespace FileFault

def missing : FileFault :=
  ⟨"No such file or directory", some 2⟩

/-- There is a directory where a file should be. -/
def directory : FileFault :=
  ⟨"Is a directory", some 21⟩

def message (f : FileFault) : String :=
  match f.number with
  | some n => s!"{f.text} (os error {n})"
  | none => f.text

end FileFault

/-- Why a configuration cannot be used. -/
inductive ConfigFault where
  | unreadable (fault : FileFault)
  | notUtf8
  /-- The text is no TOML document, or a setting in it has the wrong type. -/
  | invalid
  | emptyHost
  | emptyProgram
  | emptyDelimiter
  | noStartupTime
  | emptyPackage
  | noBacktrace
deriving DecidableEq, Repr

def ConfigFault.message : ConfigFault → String
  | unreadable fault => s!"failed to read config: {fault.message}"
  | notUtf8 => "failed to read config: stream did not contain valid UTF-8"
  | invalid => "invalid config"
  | emptyHost => "server.host must not be empty"
  | emptyProgram => "interpreter.program must not be empty"
  | emptyDelimiter => "interpreter.delimiter must not be empty"
  | noStartupTime => "interpreter.startup_timeout_seconds must be greater than zero"
  | emptyPackage => "session.default_package must not be empty"
  | noBacktrace => "session.backtrace_depth must be greater than zero"

/-- A faulty configuration is a failure of the server. -/
def ConfigFault.failure (f : ConfigFault) : Failure :=
  .config f.message

namespace Config

/-- The first fault of a configuration. -/
def fault? (c : Config) : Option ConfigFault :=
  if Text.isAllBlank c.server.host then some .emptyHost
  else if Text.isAllBlank c.interpreter.program then some .emptyProgram
  else if c.interpreter.delimiter.isEmpty then some .emptyDelimiter
  else if c.interpreter.startupTimeout = 0 then some .noStartupTime
  else if Text.isAllBlank c.session.defaultPackage then some .emptyPackage
  else if c.session.backtraceDepth = 0 then some .noBacktrace
  else none

/-- A configuration without faults. -/
def check (c : Config) : Except ConfigFault Config :=
  match c.fault? with
  | some fault => .error fault
  | none => .ok c

/-- Nothing has to be set. -/
theorem fault?_default : ({} : Config).fault? = none := by
  decide +kernel

/-- What can be set about a session. -/
def settings (c : Config) : Settings where
  delimiter := c.interpreter.delimiter
  promptTimeout := c.session.promptTimeout
  swankVersion := c.session.swankVersion
  defaultPackage := c.session.defaultPackage
  backtraceDepth := c.session.backtraceDepth

end Config

end LispBridge
