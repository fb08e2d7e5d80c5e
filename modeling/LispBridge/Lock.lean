/-!
A fair lock: whoever asks first gets it first, and it is handed over when it is given back.
-/

namespace LispBridge

/-- A lock among participants named by numbers. -/
structure Lock where
  holder : Option Nat := none
  /-- Who waits, in the order of arrival. -/
  waiting : List Nat := []
deriving DecidableEq, Repr

namespace Lock

def join (l : Lock) (p : Nat) : Lock :=
  match l.holder with
  | none => { l with holder := some p }
  | some _ => { l with waiting := l.waiting ++ [p] }

/-- Gives the lock back, or stops waiting for it. -/
def leave (l : Lock) (p : Nat) : Lock :=
  if l.holder = some p then
    match l.waiting with
    | [] => { l with holder := none }
    | next :: rest => ⟨some next, rest⟩
  else { l with waiting := l.waiting.filter (· ≠ p) }

end Lock

end LispBridge
