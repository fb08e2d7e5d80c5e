/-!
Scanners: what reads a part of a text from its front, or refuses it. A scanner that refuses has
taken nothing, so that another may be tried.

* `Scan.many`: as often as a scanner accepts.
* `Scan.sepBy`: the same with something between.
-/

namespace LispBridge

/-- Reads a part of a text from its front, or refuses it. -/
abbrev Scan (α : Type) : Type :=
  StateT (List Char) Option α

namespace Scan

/-- Scans a text from its front to its end. -/
def all? {α : Type} (p : Scan α) (text : List Char) : Option α :=
  match p.run text with
  | some (a, []) => some a
  | _ => none

/-- One character of a kind. -/
def satisfy (p : Char → Bool) : Scan Char := fun
  | c :: cs => if p c then some (c, cs) else none
  | [] => none

def char (c : Char) : Scan Unit := do
  let _ ← satisfy (· = c)

/-- A run of characters, which may be empty, of a kind. -/
def takeWhile (p : Char → Bool) : Scan (List Char) := fun cs =>
  some (cs.takeWhile p, cs.dropWhile p)

/-- A run of at least one character of a kind. -/
def takeWhile1 (p : Char → Bool) : Scan (List Char) := do
  let c ← satisfy p
  return c :: (← takeWhile p)

/-- These characters. -/
def literal (cs : List Char) : Scan Unit :=
  cs.forM char

def atEnd : Scan Unit := fun
  | [] => some ((), [])
  | _ => none

/-- As often as a scanner accepts, at most so many times. -/
def upTo {α : Type} (p : Scan α) : Nat → Scan (List α)
  | 0 => pure []
  | n + 1 =>
    (do
      let a ← p
      return a :: (← upTo p n)) <|> pure []

/-- As often as a scanner accepts. One that takes at least a character accepts no more often than
there are characters. -/
def many {α : Type} (p : Scan α) : Scan (List α) := fun cs =>
  upTo p cs.length cs

/-- At least once, with something between. -/
def sepBy1 {α : Type} (p : Scan α) (between : Scan Unit) : Scan (List α) := do
  let a ← p
  return a :: (← many (do between; p))

/-- Any number of times, with something between. -/
def sepBy {α : Type} (p : Scan α) (between : Scan Unit) : Scan (List α) :=
  sepBy1 p between <|> pure []

end Scan

end LispBridge
