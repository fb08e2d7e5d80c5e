import LispBridge.Datum.Basic
import LispBridge.Number.Decimal

/-!
Printing data. The editor reads the wire style; commands to the interpreter use the Lisp style,
which names the package of truth and falsehood.
-/

namespace LispBridge

/-- How `t` and `nil` are spelled. -/
inductive Style where
  /-- `t` and `nil`, as the editor expects them. -/
  | wire
  /-- `lisp:t` and `lisp:nil`, which mean the same in every package. -/
  | lisp
deriving DecidableEq, Repr

/-- The spelling of `t`. -/
def Style.truth : Style → String
  | .wire => "t"
  | .lisp => "lisp:t"

/-- The spelling of `nil`. -/
def Style.falsehood : Style → String
  | .wire => "nil"
  | .lisp => "lisp:nil"

namespace Datum

/-- Adds one character of a string literal to a text. -/
def pushEscaped (acc : String) (c : Char) : String :=
  if c = '"' ∨ c = '\\' then (acc.push '\\').push c else acc.push c

/-- The text of a string literal between its quotes: quotes and backslashes follow a backslash. -/
def escape (s : String) : String :=
  s.foldl pushEscaped ""

mutual

/-- Adds the text of a value to a text. -/
def printOnto (style : Style) (acc : String) : Datum → String
  | .nil => acc ++ style.falsehood
  | .t => acc ++ style.truth
  | .int n => acc ++ String.ofList (renderInt n.toInt)
  | .float x => acc ++ String.ofList x.render
  | .str s => (s.foldl pushEscaped (acc.push '"')).push '"'
  | .symbol s => acc ++ s
  | .list [] => acc ++ style.falsehood
  | .list (d :: ds) => (printItemsOnto style (printOnto style (acc.push '(') d) ds).push ')'

/-- Adds the texts of values to a text, a space in front of each. -/
def printItemsOnto (style : Style) (acc : String) : List Datum → String
  | [] => acc
  | d :: ds => printItemsOnto style (printOnto style (acc.push ' ') d) ds

end

/-- The text of a value in a style. -/
def print (style : Style) (d : Datum) : String :=
  printOnto style "" d

/-- The text of a value as the editor reads it. -/
def wire (d : Datum) : String :=
  d.print .wire

/-- The text of a value inside a command to the interpreter. -/
def lisp (d : Datum) : String :=
  d.print .lisp

end Datum

end LispBridge
