import LispBridge.Config.Basic
import LispBridge.Text.Utf8
import LispBridge.Toml.Document

/-!
Configurations as TOML documents.

A group of settings is a table, or an array of the settings in their order; what is missing keeps
its default, and what is unknown is ignored.

* `Config.ofToml`: the configuration that a document describes.
* `Config.ofFile`: the configuration in a file.
-/

namespace LispBridge

open Toml (Node Entries)

/-- A group of settings as it is written. -/
inductive SettingGroup where
  | named (entries : Entries)
  | listed (items : List Node)

namespace SettingGroup

/-- The group that a value spells. A moment is a group without known settings. -/
def ofNode? : Node → Option SettingGroup
  | .table _ entries => some (.named entries)
  | .array items => some (.listed items)
  | .tables last before =>
    some (.listed ((last :: before).reverse.map (.table .header)))
  | .moment => some (.named [])
  | _ => none

/-- The value of a setting, by its name or its place. -/
def get? (g : SettingGroup) (name : String) (place : Nat) : Option Node :=
  match g with
  | named entries => entries.get? name
  | listed items => items[place]?

/-- A setting, or its default if it is missing. -/
def read? {α : Type} (g : SettingGroup) (name : String) (place : Nat) (ofNode? : Node → Option α)
    (default : α) : Option α :=
  match g.get? name place with
  | some n => ofNode? n
  | none => some default

end SettingGroup

namespace Toml.Node

def asText? : Node → Option String
  | .text s => some s
  | _ => none

/-- The truth value of a boolean. -/
def asBool? : Node → Option Bool
  | .boolean b => some b
  | _ => none

/-- A whole number that is not negative. -/
def asCount? : Node → Option Nat
  | .integer n => if 0 ≤ n.toInt then some n.toInt.toNat else none
  | _ => none

def asPort? (n : Node) : Option UInt16 := do
  let port ← n.asCount?
  if port < UInt16.size then some (.ofNat port) else none

/-- The texts of an array of strings. -/
def asTexts? : Node → Option (List String)
  | .array items => items.mapM asText?
  | _ => none

end Toml.Node

namespace ServerConfig

/-- Reads how editors connect. -/
def ofNode? (n : Node) : Option ServerConfig := do
  let g ← SettingGroup.ofNode? n
  let d : ServerConfig := {}
  return {
    host := ← g.read? "host" 0 Node.asText? d.host
    port := ← g.read? "port" 1 Node.asPort? d.port
    portFile := ← g.read? "port_file" 2 (some <$> Node.asText? ·) d.portFile
    staysOpen := ← g.read? "dont_close" 3 Node.asBool? d.staysOpen
    grace := ← g.read? "shutdown_grace_ms" 4 Node.asCount? d.grace }

end ServerConfig

namespace InterpreterConfig

/-- Reads how the interpreter is started. -/
def ofNode? (n : Node) : Option InterpreterConfig := do
  let g ← SettingGroup.ofNode? n
  let d : InterpreterConfig := {}
  return {
    program := ← g.read? "program" 0 Node.asText? d.program
    arguments := ← g.read? "args" 1 Node.asTexts? d.arguments
    initFile := ← g.read? "init_file" 2 (some <$> Node.asText? ·) d.initFile
    workingDirectory := ← g.read? "working_dir" 3 (some <$> Node.asText? ·) d.workingDirectory
    delimiter := ← g.read? "delimiter" 4 Node.asText? d.delimiter
    startupTimeout := ← g.read? "startup_timeout_seconds" 5 Node.asCount? d.startupTimeout }

end InterpreterConfig

namespace SessionConfig

/-- Reads how a session behaves. -/
def ofNode? (n : Node) : Option SessionConfig := do
  let g ← SettingGroup.ofNode? n
  let d : SessionConfig := {}
  return {
    promptTimeout := ← g.read? "interrupt_prompt_timeout_ms" 0 Node.asCount? d.promptTimeout
    defaultPackage := ← g.read? "default_package" 1 Node.asText? d.defaultPackage
    swankVersion := ← g.read? "swank_version" 2 Node.asText? d.swankVersion
    backtraceDepth := ← g.read? "backtrace_depth" 3 Node.asCount? d.backtraceDepth }

end SessionConfig

namespace Config

/-- Reads a configuration. -/
def ofEntries? (entries : Entries) : Option Config := do
  let g := SettingGroup.named entries
  return {
    server := ← g.read? "server" 0 ServerConfig.ofNode? {}
    interpreter := ← g.read? "interpreter" 1 InterpreterConfig.ofNode? {}
    session := ← g.read? "session" 2 SessionConfig.ofNode? {} }

/-- The configuration that a document describes. -/
def ofToml (text : String) : Except ConfigFault Config :=
  match Toml.document? text >>= ofEntries? with
  | some c => c.check
  | none => .error .invalid

/-- The configuration in a file, from the file's content. -/
def ofFile (content : Except FileFault (List UInt8)) : Except ConfigFault Config :=
  match content with
  | .error fault => .error (.unreadable fault)
  | .ok bytes =>
    match Utf8.decode bytes with
    | .ok cs => ofToml (String.ofList cs)
    | .error _ => .error .notUtf8

end Config

end LispBridge
