import LispBridge.Message.Inbound

/-!
The arguments of a request, by position and kind.
-/

namespace LispBridge

/-- Why an argument cannot be used. -/
inductive ArgumentFault where
  | missing (index : Nat)
  | notString (index : Nat) (value : Datum)
  | notCount (index : Nat) (value : Datum)
deriving DecidableEq, Repr

/-- The text of a fault in the arguments of a command. -/
def ArgumentFault.message (tag : String) : ArgumentFault → String
  | missing index => s!"{tag}: missing argument {index}"
  | notString index value => s!"{tag}: argument {index} must be a string, got {value.wire}"
  | notCount index value =>
    s!"{tag}: argument {index} must be a non-negative integer, got {value.wire}"

namespace Request

/-- A request whose arguments cannot be used is malformed. -/
def refuse {α : Type} (r : Request) (fault : ArgumentFault) : Except Failure α :=
  .error (.malformed (fault.message r.tag))

def arg (r : Request) (index : Nat) : Except Failure Datum :=
  match r.args[index]? with
  | some d => .ok d
  | none => r.refuse (.missing index)

/-- The argument at an index, unless it is missing or `nil`. -/
def optArg? (r : Request) (index : Nat) : Option Datum :=
  r.args[index]?.filter Datum.isTruthy

def strArg (r : Request) (index : Nat) : Except Failure String := do
  let d ← r.arg index
  match d with
  | .str s => return s
  | d => r.refuse (.notString index d)

def countArg (r : Request) (index : Nat) : Except Failure Nat := do
  let d ← r.arg index
  match d with
  | .int n => if n.toInt < 0 then r.refuse (.notCount index d) else return n.toInt.toNat
  | d => r.refuse (.notCount index d)

end Request

end LispBridge
