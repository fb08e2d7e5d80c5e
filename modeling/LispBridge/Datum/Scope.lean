import LispBridge.Datum.Basic

/-!
The list around the cursor. The editor marks the cursor by a symbol inside a form; the scope is the
innermost list that holds the mark.
-/

namespace LispBridge

/-- The name of the symbol that marks the cursor. -/
def cursorMark : String := "swank::%cursor-marker%"

/-- A list that holds the mark, the index of the last mark in it, and how many lists are around
it. -/
structure Scope where
  items : List Datum
  cursor : Nat
  depth : Nat
deriving DecidableEq, Repr

namespace Scope

/-- The index of the last mark among some elements, counted from `i`. -/
def lastMark (i : Nat) (best : Option Nat) : List Datum → Option Nat
  | [] => best
  | d :: ds => lastMark (i + 1) (if d.isSymbol cursorMark then some i else best) ds

/-- A list as the scope of a mark among its own elements. -/
def own (items : List Datum) (depth : Nat) : Option Scope :=
  (lastMark 0 none items).map fun cursor => ⟨items, cursor, depth⟩

/-- The deeper of two scopes; of two equally deep ones the latter. -/
def deeper : Option Scope → Option Scope → Option Scope
  | best, none => best
  | none, found => found
  | some best, some found => some (if best.depth ≤ found.depth then found else best)

mutual

/-- The deepest scope inside a value that `depth` lists surround. -/
def within (depth : Nat) : Datum → Option Scope
  | .list items => withinItems (depth + 1) (own items depth) items
  | _ => none

/-- The deepest of a scope and those inside some elements that `depth` lists surround. -/
def withinItems (depth : Nat) (best : Option Scope) : List Datum → Option Scope
  | [] => best
  | d :: ds => withinItems depth (deeper best (within depth d)) ds

end

/-- The elements of a scope other than the mark at the cursor. -/
def others (s : Scope) : List Datum :=
  s.items.eraseIdx s.cursor

end Scope

/-- The innermost list that holds the mark. Among equally deep ones it is the last in the text,
and of several marks in one list the last one counts. -/
def Datum.scope (d : Datum) : Option Scope :=
  Scope.within 0 d

end LispBridge
