import LispBridge.Message.Outbound
import LispBridge.Text.Search

/-!
The debugger: a stack of levels, each of which holds a request whose result is still owed.

* `Restart`: the ways out of a level.
* `Frame`: one level, with the restarts it offers.
* `Debugger.resolve`: leaves a level, and all levels above it, by a restart.
* `headline`: the part of a condition's text that ends up in the result of its request.
-/

namespace LispBridge

/-! ### Restarts -/

/-- A way out of a debugger level. -/
inductive Restart where
  /-- Back to the top level, out of every level. -/
  | quit
  /-- Out of this level and those above it. -/
  | continue
  /-- A new interpreter, out of every level. -/
  | restart
deriving DecidableEq, Repr

namespace Restart

/-- The name that the debugger shows. -/
def name : Restart → String
  | quit => "QUIT"
  | .continue => "CONTINUE"
  | restart => "RESTART"

/-- The description that the debugger shows next to the name. -/
def description : Restart → String
  | quit => "Quit to the SLIME top level"
  | .continue => "Ignore the error and continue in the same stack level"
  | restart => "Restart euslisp process"

/-- The restarts that a level offers, in the order of their indices. -/
def offered (fatal : Bool) : List Restart :=
  if fatal then [restart] else [quit, .continue, restart]

/-- Whether a restart leaves every level. -/
def clearsStack (r : Restart) : Bool :=
  r ≠ .continue

end Restart

/-! ### Levels -/

/-- One debugger level. -/
structure Level where
  /-- The request whose result is owed. -/
  id : RequestId
  message : String
  /-- Descriptions of the stack frames, innermost first. -/
  stack : List String
  /-- Whether a new interpreter is the only way out. -/
  fatal : Bool
deriving DecidableEq, Repr, Inhabited

namespace Level

/-- The level of a condition that request `id` raised. -/
def ofCondition (id : RequestId) (c : Condition) : Level :=
  ⟨id, c.message, c.stack, c.fatal⟩

/-- The level of a failure of the interpreter's process. -/
def ofProcessFailure (id : RequestId) (message : String) : Level :=
  ⟨id, message, [], true⟩

/-- The restarts of a level, in the order of their indices. -/
def restarts (l : Level) : List Restart :=
  Restart.offered l.fatal

def restartAt? (l : Level) (index : Nat) : Option Restart :=
  l.restarts[index]?

def indexOf? (l : Level) (r : Restart) : Option Nat :=
  l.restarts.idxOf? r

/-- The event that announces a level as number `n`. -/
def debugEvent (l : Level) (n : Nat) : Event :=
  .debug n l.message (l.restarts.map fun r => (r.name, r.description)) l.stack l.id

end Level

/-! ### The stack -/

/-- The active levels, outermost first: level `n` is at index `n - 1`. -/
structure Debugger where
  levels : List Level := []
deriving DecidableEq, Repr

/-- What leaving a level comes to. -/
structure Resolution where
  number : Nat
  level : Level
  /-- The restart at the chosen index, if one is offered there. -/
  action : Option Restart
  /-- The levels above it with their numbers, innermost first. -/
  above : List (Nat × Level)
  /-- The levels below it that were left as well, with their numbers, innermost first. -/
  below : List (Nat × Level)
deriving DecidableEq, Repr

namespace Debugger

/-- The number of active levels. -/
def depth (d : Debugger) : Nat :=
  d.levels.length

def level? (d : Debugger) (number : Nat) : Option Level :=
  if number = 0 then none else d.levels[number - 1]?

/-- Enters a level; its number is the new depth. -/
def push (d : Debugger) (l : Level) : Debugger :=
  ⟨d.levels ++ [l]⟩

/-- Levels with their numbers, which count from `first`, innermost first. -/
def innermostFirst (levels : List Level) (first : Nat) : List (Nat × Level) :=
  (levels.mapIdx fun i l => (first + i, l)).reverse

/-- Leaves a level by the restart at an index. The levels above it are left with it, and those
below it if the restart clears the stack. Nothing happens if the level is not active. -/
def resolve (d : Debugger) (number index : Nat) : Option (Resolution × Debugger) :=
  if number = 0 then none
  else
    match d.levels.drop (number - 1) with
    | [] => none
    | level :: above =>
      let action := level.restartAt? index
      let rest := d.levels.take (number - 1)
      let clears := action.any Restart.clearsStack
      some ({ number, level, action
              above := innermostFirst above (number + 1)
              below := if clears then innermostFirst rest 1 else [] },
            ⟨if clears then [] else rest⟩)

end Debugger

/-! ### Texts -/

/-- The part of a condition's text that is reported: what precedes the first delimiter, without
the last clause that says where it happened. -/
def headline (message delimiter : String) : String :=
  let head :=
    if delimiter.isEmpty then message.toList else Text.beforeFirst delimiter.toList message.toList
  String.ofList (Text.beforeLast " in ".toList head)

end LispBridge
