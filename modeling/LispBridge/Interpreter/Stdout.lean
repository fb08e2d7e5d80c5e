import LispBridge.Text.Utf8

/-!
The output of a process, line by line.

* `Stdout.feed`: bytes that the process writes.
* `Stdout.finish`: the end of its output. What is left of a line then counts as a line.
-/

namespace LispBridge

/-- A line of output, if it is text. -/
abbrev OutputLine : Type :=
  Except Utf8.Fault String

namespace OutputLine

/-- A line without its end: a line feed, and a carriage return in front of it. -/
def strip (cs : List Char) : List Char :=
  match cs.reverse with
  | '\n' :: '\r' :: r => r.reverse
  | '\n' :: r => r.reverse
  | _ => cs

/-- The line that bytes spell, up to and with the line feed. -/
def ofBytes (bytes : List UInt8) : OutputLine :=
  (Utf8.decode bytes).map fun cs => String.ofList (strip cs)

end OutputLine

/-- The output of a process that nobody has read. -/
structure Stdout where
  lines : List OutputLine := []
  rest : List UInt8 := []
  isOver : Bool := false

namespace Stdout

/-- Cuts bytes behind every line feed: the pieces, and what is left behind the last. -/
def cut : List UInt8 → List (List UInt8) × List UInt8
  | [] => ([], [])
  | b :: bs =>
    match cut bs with
    | (pieces, rest) =>
      if b = 10 then ([b] :: pieces, rest)
      else
        match pieces with
        | [] => ([], b :: rest)
        | p :: ps => ((b :: p) :: ps, rest)

/-- Nothing is lost by cutting. -/
theorem flatten_cut (bytes : List UInt8) : (cut bytes).1.flatten ++ (cut bytes).2 = bytes := by
  induction bytes with
  | nil => rfl
  | cons b bs ih =>
    rcases h : cut bs with ⟨pieces, rest⟩
    rw [h] at ih
    by_cases hb : b = 10
    · simpa [cut, h, hb] using ih
    · cases pieces <;> simp_all [cut]

/-- Adds bytes that the process writes. -/
def feed (s : Stdout) (bytes : List UInt8) : Stdout :=
  let (pieces, rest) := cut (s.rest ++ bytes)
  { s with lines := s.lines ++ pieces.map OutputLine.ofBytes, rest }

/-- Ends the output. -/
def finish (s : Stdout) : Stdout :=
  let last := if s.rest.isEmpty then [] else [OutputLine.ofBytes s.rest]
  { lines := s.lines ++ last, rest := [], isOver := true }

end Stdout

end LispBridge
