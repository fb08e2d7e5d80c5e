import LispBridge.Number.Binary64

/-!
The values of a TOML document, and the rules on where an entry may be added.

A table can be written in several places, but each of its entries only once, and a table that has
been written as a whole is closed. `Origin` tells how a table came to be, which decides what may
still be added to it.

* `Node.change?`: changes the table that a path leads to.
* `Node.addEntry?`, `Node.openTable?`, `Node.appendTable?`: an entry, a header, and a header of an
  array of tables.
-/

namespace LispBridge.Toml

/-- How a table came to be. -/
inductive Origin where
  /-- It has a header, or is the document itself. -/
  | header
  /-- It stands in front of a dot in a header. -/
  | passed
  /-- It stands in front of a dot in the key of an entry. -/
  | dotted
  /-- It is written between braces. -/
  | inline
deriving DecidableEq, Repr

/-- A value, or a table with its entries. -/
inductive Node where
  | text (s : String)
  | integer (n : Int64)
  | float (x : Binary64)
  | boolean (b : Bool)
  /-- A date, a time of day, or both. -/
  | moment
  | array (items : List Node)
  | table (origin : Origin) (entries : List (String × Node))
  /-- An array of tables with a header each: the last, and those before it, last first. -/
  | tables (last : List (String × Node)) (before : List (List (String × Node)))

/-- Entries with their keys. -/
abbrev Entries : Type :=
  List (String × Node)

namespace Entries

def get? (es : Entries) (key : String) : Option Node :=
  (es.find? (·.1 = key)).map (·.2)

/-- Sets the value of a key, in its place or behind the other entries. -/
def set (es : Entries) (key : String) (n : Node) : Entries :=
  if es.any (·.1 = key) then es.map fun e => if e.1 = key then (key, n) else e
  else es ++ [(key, n)]

/-- Adds an entry whose key is new. -/
def add? (es : Entries) (key : String) (n : Node) : Option Entries :=
  if es.any (·.1 = key) then none else some (es.set key n)

end Entries

/-- Whether a path may lead through a table. Nothing is added to one between braces, and a dotted
key adds nothing to a table that has a header. -/
def Origin.isOpenTo (via : Origin) : Origin → Bool
  | .inline => false
  | .header => via ≠ .dotted
  | .passed | .dotted => true

namespace Node

/-- Changes the table that a path leads to. Tables that are missing on the way are made, and an
array of tables stands for its last. -/
def change? (via : Origin) (change : Origin → Entries → Option Entries) :
    List String → Origin → Entries → Option Entries
  | [], origin, es => change origin es
  | key :: path, _, es =>
    match es.get? key with
    | none => (change? via change path via []).map fun inner => es.set key (.table via inner)
    | some (.table origin inner) =>
      if via.isOpenTo origin then
        (change? via change path origin inner).map fun inner => es.set key (.table origin inner)
      else none
    | some (.tables last before) =>
      (change? via change path .header last).map fun last => es.set key (.tables last before)
    | some _ => none

/-- Adds an entry to a table. The key leads through dotted tables alone, or has no dot at all. -/
def addEntry? (origin : Origin) (es : Entries) (path : List String) (key : String) (n : Node) :
    Option Entries :=
  change? .dotted (fun reached es =>
    if path = [] ∨ reached = .dotted then es.add? key n else none) path origin es

/-- Opens a table under its header. It is new, or only headers of its own tables came before. -/
def openTable? (es : Entries) (path : List String) (key : String) : Option Entries :=
  change? .passed (fun _ es =>
    match es.get? key with
    | none => some (es.set key (.table .header []))
    | some (.table .passed inner) => some (es.set key (.table .header inner))
    | some _ => none) path .header es

/-- Opens one more table of an array of tables. -/
def appendTable? (es : Entries) (path : List String) (key : String) : Option Entries :=
  change? .passed (fun _ es =>
    match es.get? key with
    | none => some (es.set key (.tables [] []))
    | some (.tables last before) => some (es.set key (.tables [] (last :: before)))
    | some _ => none) path .header es

def addEntryUnder? (es : Entries) (header path : List String) (key : String) (n : Node) :
    Option Entries :=
  change? .passed (fun origin es => addEntry? origin es path key n) header .header es

end Node

end LispBridge.Toml
