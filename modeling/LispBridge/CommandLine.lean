import LispBridge.Config.Document
import LispBridge.Number.Decimal
import LispBridge.Text.Quoted

/-!
The command line: options that override the configuration, and how a run of the program ends.

* `Invocation.ofArguments`: what the arguments ask for.
* `Options.configuration`: the configuration that the options and their file make up.
* `Exit`: how a run ends, with its exit code and its report.
-/

namespace LispBridge

/-- The notation of log lines. -/
inductive LogFormat where
  | text
  | json
deriving DecidableEq, Repr

/-- An option that takes a value. -/
inductive Setting where
  | config
  | logFormat
  | host
  | port
  | portFile
  | program
  | initFile
deriving DecidableEq, Repr

/-- The options of a run. One that is missing overrides nothing. -/
structure Options where
  configFile : Option String := none
  logFormat : Option LogFormat := none
  host : Option String := none
  port : Option UInt16 := none
  portFile : Option String := none
  program : Option String := none
  initFile : Option String := none
  staysOpen : Bool := false
deriving DecidableEq, Repr

/-- What the arguments ask for. -/
inductive Invocation where
  | help
  | version
  | run (options : Options)
deriving DecidableEq, Repr

/-- Why arguments cannot be used. -/
inductive UsageFault where
  | unexpected (argument : String)
  | missingValue (option : String)
  | badValue (option value : String)
  | repeated (option : String)
deriving DecidableEq, Repr

def UsageFault.message : UsageFault → String
  | unexpected argument => s!"unexpected argument '{argument}' found"
  | missingValue option => s!"a value is required for '{option}' but none was supplied"
  | badValue option value => s!"invalid value '{value}' for '{option}'"
  | repeated option => s!"the argument '{option}' cannot be used multiple times"

/-! ### Options -/

namespace Setting

/-- The option with a name, without its dashes. -/
def ofName? : String → Option Setting
  | "config" => some .config
  | "log-format" => some .logFormat
  | "host" => some .host
  | "port" => some .port
  | "port-file" => some .portFile
  | "program" => some .program
  | "init-file" => some .initFile
  | _ => none

def isGiven (s : Setting) (o : Options) : Bool :=
  match s with
  | config => o.configFile.isSome
  | logFormat => o.logFormat.isSome
  | host => o.host.isSome
  | port => o.port.isSome
  | portFile => o.portFile.isSome
  | program => o.program.isSome
  | initFile => o.initFile.isSome

/-- The path that a value spells; it is not empty. -/
def readPath? (value : String) : Option String :=
  if value.isEmpty then none else some value

def readPort? (value : String) : Option UInt16 := do
  let n ← readInt64? value.toList
  if 0 ≤ n.toInt ∧ n.toInt < UInt16.size then some (.ofNat n.toInt.toNat) else none

/-- The notation that a value names. -/
def readLogFormat? : String → Option LogFormat
  | "text" => some .text
  | "json" => some .json
  | _ => none

/-- Gives an option a value, if the value suits it. -/
def give? (s : Setting) (value : String) (o : Options) : Option Options :=
  match s with
  | config => (readPath? value).map fun v => { o with configFile := some v }
  | logFormat => (readLogFormat? value).map fun v => { o with logFormat := some v }
  | host => some { o with host := some value }
  | port => (readPort? value).map fun v => { o with port := some v }
  | portFile => (readPath? value).map fun v => { o with portFile := some v }
  | program => some { o with program := some value }
  | initFile => (readPath? value).map fun v => { o with initFile := some v }

end Setting

/-! ### Arguments -/

/-- An argument by its shape. -/
inductive Argument where
  /-- Two dashes: no options follow. -/
  | endOfOptions
  /-- Two dashes and a name, with a value if there is an equals sign. -/
  | long (name : String) (value : Option String)
  | short (letters : List Char)
  | other
deriving DecidableEq, Repr

/-- The shape of an argument. A single dash is an ordinary one. -/
def Argument.ofString (s : String) : Argument :=
  match s.toList with
  | ['-', '-'] => .endOfOptions
  | '-' :: '-' :: cs =>
    let name := String.ofList (cs.takeWhile (· ≠ '='))
    match cs.dropWhile (· ≠ '=') with
    | [] => .long name none
    | _ :: value => .long name (some (String.ofList value))
  | ['-'] => .other
  | '-' :: cs => .short cs
  | _ => .other

namespace Invocation

/-- Gives an option a value, once. -/
def giveOnce (s : Setting) (option value : String) (o : Options) : Except UsageFault Options :=
  if s.isGiven o then .error (.repeated option)
  else
    match s.give? value o with
    | some o => .ok o
    | none => .error (.badValue option value)

/-- What more arguments ask for. They are read from left to right, and the first that is at fault
or asks for help or for the version settles it. -/
def extend (o : Options) : List String → Except UsageFault Invocation
  | [] => .ok (.run o)
  | argument :: rest =>
    match Argument.ofString argument with
    | .endOfOptions =>
      match rest with
      | [] => .ok (.run o)
      | extra :: _ => .error (.unexpected extra)
    | .short ('h' :: _) => .ok .help
    | .short ('V' :: _) => .ok .version
    | .short _ | .other => .error (.unexpected argument)
    | .long "help" none => .ok .help
    | .long "version" none => .ok .version
    | .long "dont-close" none =>
      if o.staysOpen then .error (.repeated argument) else extend { o with staysOpen := true } rest
    | .long name value =>
      match Setting.ofName? name, value, rest with
      | none, _, _ => .error (.unexpected argument)
      | some s, some value, rest =>
        match giveOnce s argument value o with
        | .ok o => extend o rest
        | .error fault => .error fault
      | some _, none, [] => .error (.missingValue argument)
      | some s, none, value :: rest =>
        match Argument.ofString value with
        | .other =>
          match giveOnce s argument value o with
          | .ok o => extend o rest
          | .error fault => .error fault
        | _ => .error (.missingValue argument)

def ofArguments (arguments : List String) : Except UsageFault Invocation :=
  extend {} arguments

end Invocation

/-! ### Configuration -/

/-- A configuration with the options of a run in place of its settings. -/
def Options.override (o : Options) (c : Config) : Config where
  server :=
    { c.server with
      host := o.host.getD c.server.host
      port := o.port.getD c.server.port
      portFile := o.portFile.or c.server.portFile
      staysOpen := o.staysOpen || c.server.staysOpen }
  interpreter :=
    { c.interpreter with
      program := o.program.getD c.interpreter.program
      initFile := o.initFile.or c.interpreter.initFile }
  session := c.session

/-- The configuration of a run. The file has to be valid by itself. -/
def Options.configuration (o : Options) (readFile : String → Except FileFault (List UInt8)) :
    Except ConfigFault Config := do
  let base ←
    match o.configFile with
    | some path => Config.ofFile (readFile path)
    | none => pure {}
  (o.override base).check

/-! ### Outcomes -/

/-- The name of a kind of failure in a report. -/
def Failure.kind : Failure → String
  | config _ => "Config"
  | framing _ => "Framing"
  | malformed _ => "MalformedMessage"
  | unknownCommand _ => "UnknownCommand"
  | abort _ => "Abort"
  | interpreter _ => "Interpreter"
  | process _ => "Process"
  | io _ => "Io"

/-- What a failure says, without its kind. -/
def Failure.detail : Failure → String
  | config detail | framing detail | malformed detail | unknownCommand detail | process detail
  | io detail => detail
  | abort message => message.getD ""
  | interpreter condition => condition.message

/-- How a run of the program ends. -/
inductive Exit where
  | printed (text : String)
  /-- Its arguments cannot be used. -/
  | misused (fault : UsageFault)
  | failed (failure : Failure)
  /-- It served until it was told to stop. -/
  | served
deriving DecidableEq, Repr

namespace Exit

def exitCode : Exit → Nat
  | printed _ | served => 0
  | failed _ => 1
  | misused _ => 2

/-- What is printed as a result. -/
def output : Exit → String
  | printed text => text
  | _ => ""

def report? : Exit → Option String
  | failed failure => some s!"Error: {failure.kind}({Text.quoted failure.detail})"
  | misused fault => some s!"error: {fault.message}"
  | _ => none

end Exit

def versionText : String :=
  "euslime 0.1.0\n"

/-- How the program is used. -/
def helpText : String :=
  "SWANK backend for EusLisp

Usage: euslime [OPTIONS]

Options:
      --config <CONFIG>          Path to the TOML configuration file
      --log-format <LOG_FORMAT>  Log output format (text or json) [default: text]
      --host <HOST>              Override the listen address
      --port <PORT>              Override the listen port (0 picks a free port)
      --port-file <PORT_FILE>    Write the bound port to this file
      --program <PROGRAM>        Override the interpreter executable
      --init-file <INIT_FILE>    Override the interpreter init file
      --dont-close               Keep serving after the first editor disconnects
  -h, --help                     Print help
  -V, --version                  Print version
"

/-- The first half of a run: the configuration to serve with, or how the run ends without one. -/
def Invocation.prepare (arguments : List String)
    (readFile : String → Except FileFault (List UInt8)) : Except Exit Config :=
  match ofArguments arguments with
  | .error fault => .error (.misused fault)
  | .ok .help => .error (.printed helpText)
  | .ok .version => .error (.printed versionText)
  | .ok (.run o) => (o.configuration readFile).mapError fun fault => .failed fault.failure

end LispBridge
