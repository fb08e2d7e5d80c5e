/-!
Searching a text for a separator: its first occurrence, its last one, and the text on both sides.
-/

namespace LispBridge.Text

/-- The index of the first occurrence of `sep` in `cs`, counted from `i`. -/
def firstIndexFrom (sep : List Char) (i : Nat) (cs : List Char) : Option Nat :=
  if sep.isPrefixOf cs then some i
  else
    match cs with
    | [] => none
    | _ :: r => firstIndexFrom sep (i + 1) r

/-- The index of the first occurrence of `sep` in `cs`. -/
def firstIndex? (sep cs : List Char) : Option Nat :=
  firstIndexFrom sep 0 cs

/-- The index of the last occurrence of `sep` in `cs`, counted from `i`; `best` is the last one
before. -/
def lastIndexFrom (sep : List Char) (i : Nat) (best : Option Nat) (cs : List Char) : Option Nat :=
  let best := if sep.isPrefixOf cs then some i else best
  match cs with
  | [] => best
  | _ :: r => lastIndexFrom sep (i + 1) best r

/-- The index of the last occurrence of `sep` in `cs`. -/
def lastIndex? (sep cs : List Char) : Option Nat :=
  lastIndexFrom sep 0 none cs

/-- The text before the first occurrence of `sep`; all of it if there is none. -/
def beforeFirst (sep cs : List Char) : List Char :=
  match firstIndex? sep cs with
  | some i => cs.take i
  | none => cs

/-- The text before the last occurrence of `sep`; all of it if there is none. -/
def beforeLast (sep cs : List Char) : List Char :=
  match lastIndex? sep cs with
  | some i => cs.take i
  | none => cs

end LispBridge.Text
