import LispBridge.Toml.Node
import LispBridge.Toml.Number

/-!
Documents: lines that hold an entry, a header or neither.

* `Toml.value`: a value, with arrays and tables between braces inside it.
* `Toml.document?`: the entries of a whole document, if it is one.
-/

namespace LispBridge.Toml

open Scan

/-! ### Values -/

/-- A path and what comes behind its last dot. -/
def splitLast : List String → List String × String
  | [] => ([], "")
  | [k] => ([], k)
  | k :: ks => let (path, last) := splitLast ks; (k :: path, last)

def entry (value : Scan Node) : Scan (List String × Node) := do
  let k ← key
  char '='
  spaces
  return (k, ← value)

/-- The table that entries between braces make up. -/
def inlineTable? (es : List (List String × Node)) : Option Entries :=
  es.foldlM (fun table (k, n) =>
    let (path, last) := splitLast k
    Node.addEntry? .inline table path last n) []

/-- A value without brackets or braces. A date is tried before a number, and a number with a
fraction before a whole one. -/
def scalar : Scan Node :=
  .text <$> string <|> (do moment; return .moment) <|> .float <$> float <|> .integer <$> integer
    <|> (do literal "true".toList; return .boolean true)
    <|> (do literal "false".toList; return .boolean false)

/-- Values between brackets, on as many lines as it takes. A comma may stand behind the last. -/
def arrayOf (value : Scan Node) : Scan Node := do
  char '['
  gaps
  let items ← sepBy (do let n ← value; gaps; return n) (do char ','; gaps)
  if ! items.isEmpty then
    let _ ← optional (char ',')
  gaps
  char ']'
  return .array items

/-- Entries between braces, on one line. -/
def tableOf (value : Scan Node) : Scan Node := do
  char '\x7b'
  let es ← sepBy (do let e ← entry value; spaces; return e) (char ',')
  spaces
  char '\x7d'
  match inlineTable? es with
  | some table => return .table .inline table
  | none => failure

/-- A value in which arrays and tables are nested at most so deep. -/
def valueWithin : Nat → Scan Node
  | 0 => scalar
  | depth + 1 => scalar <|> arrayOf (valueWithin depth) <|> tableOf (valueWithin depth)

def value : Scan Node :=
  valueWithin maxDepth

/-! ### Lines -/

/-- What a line of a document holds. -/
inductive Line where
  | entry (key : List String) (value : Node)
  | header (key : List String)
  | arrayHeader (key : List String)
  | empty

/-- A line of a document, without the blank space in front of it. -/
def line : Scan Line := do
  spaces
  (do literal ['[', '[']
      let k ← key
      literal [']', ']']
      lineEnd
      return .arrayHeader k)
    <|> (do
      char '['
      let k ← key
      char ']'
      lineEnd
      return .header k)
    <|> (do
      let (k, n) ← Toml.entry value
      lineEnd
      return .entry k n)
    <|> (do comment; newline <|> atEnd; return .empty)
    <|> (do newline; return .empty)

/-- A document as far as it has been read: its entries, and the header that it is under. -/
structure Builder where
  entries : Entries := []
  header : List String := []

def Builder.add? (b : Builder) : Line → Option Builder
  | .empty => some b
  | .entry k n =>
    let (path, last) := splitLast k
    (Node.addEntryUnder? b.entries b.header path last n).map fun entries => { b with entries }
  | .header k =>
    let (path, last) := splitLast k
    (Node.openTable? b.entries path last).map fun entries => { entries, header := k }
  | .arrayHeader k =>
    let (path, last) := splitLast k
    (Node.appendTable? b.entries path last).map fun entries => { entries, header := k }

/-- A document without its byte order mark. -/
def withoutMark : List Char → List Char
  | '\ufeff' :: cs => cs
  | cs => cs

def lines : Scan (List Line) := do
  let ls ← many line
  spaces
  return ls

/-- The entries of a document, if it is one. -/
def document? (text : String) : Option Entries := do
  let ls ← lines.all? (withoutMark text.toList)
  let b ← ls.foldlM Builder.add? ({} : Builder)
  return b.entries

end LispBridge.Toml
