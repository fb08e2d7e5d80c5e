import LispBridge.Number.Binary64

/-!
Data: the S-expressions that editor, server and interpreter exchange.

* `Datum`: the values, with the constructors the rest of the library builds them by.
* `Datum.isSymbol`, `Datum.asList?` and the other views of a value.
-/

namespace LispBridge

/-- An S-expression. Keywords are symbols whose name starts with a colon. -/
inductive Datum where
  /-- `nil`: the empty list, and false. -/
  | nil
  /-- `t`: true. -/
  | t
  | int (n : Int64)
  | float (x : Binary64)
  | str (content : String)
  | symbol (name : String)
  /-- A list of elements; without any it prints as `nil` but differs from it. -/
  | list (items : List Datum)
deriving Repr, Inhabited

namespace Datum

/-! ### Equality -/

mutual

/-- Decides whether two data are equal. -/
def decEq : (a b : Datum) → Decidable (a = b)
  | .nil, .nil => isTrue rfl
  | .t, .t => isTrue rfl
  | .int a, .int b => decidable_of_iff (a = b) (by simp)
  | .float a, .float b => decidable_of_iff (a = b) (by simp)
  | .str a, .str b => decidable_of_iff (a = b) (by simp)
  | .symbol a, .symbol b => decidable_of_iff (a = b) (by simp)
  | .list as, .list bs =>
    have := decEqItems as bs
    decidable_of_iff (as = bs) (by simp)
  | .nil, .t | .nil, .int _ | .nil, .float _ | .nil, .str _ | .nil, .symbol _ | .nil, .list _
  | .t, .nil | .t, .int _ | .t, .float _ | .t, .str _ | .t, .symbol _ | .t, .list _
  | .int _, .nil | .int _, .t | .int _, .float _ | .int _, .str _ | .int _, .symbol _
  | .int _, .list _
  | .float _, .nil | .float _, .t | .float _, .int _ | .float _, .str _ | .float _, .symbol _
  | .float _, .list _
  | .str _, .nil | .str _, .t | .str _, .int _ | .str _, .float _ | .str _, .symbol _
  | .str _, .list _
  | .symbol _, .nil | .symbol _, .t | .symbol _, .int _ | .symbol _, .float _ | .symbol _, .str _
  | .symbol _, .list _
  | .list _, .nil | .list _, .t | .list _, .int _ | .list _, .float _ | .list _, .str _
  | .list _, .symbol _ => isFalse (by simp)

/-- Decides whether two lists of data are equal. -/
def decEqItems : (as bs : List Datum) → Decidable (as = bs)
  | [], [] => isTrue rfl
  | [], _ :: _ | _ :: _, [] => isFalse (by simp)
  | a :: as, b :: bs =>
    have := decEq a b
    have := decEqItems as bs
    decidable_of_iff (a = b ∧ as = bs) (by simp)

end

instance : DecidableEq Datum := decEq

/-! ### Constructors -/

/-- The list of some elements; without any it is `nil`. -/
def ofItems : List Datum → Datum
  | [] => .nil
  | items => .list items

/-- The keyword of a name given without its colon. -/
def keyword (name : String) : Datum :=
  .symbol (":" ++ name)

/-- `t` or `nil`. -/
def ofBool (b : Bool) : Datum :=
  if b then .t else .nil

/-- A string, or `nil` for none. -/
def ofText? : Option String → Datum
  | some s => .str s
  | none => .nil

/-- A count, cut off at the largest integer. -/
def ofCount (n : Nat) : Datum :=
  if (n : Int) ≤ Int64.maxValue.toInt then .int (Int64.ofNat n) else .int Int64.maxValue

/-- A property list: each name as a keyword, followed by its value. -/
def plist (entries : List (String × Datum)) : Datum :=
  .list (entries.flatMap fun (key, value) => [keyword key, value])

/-! ### Views -/

/-- Whether two texts are equal but for the case of ASCII letters. -/
def sameName (a b : String) : Bool :=
  a.toList.map Char.toLower = b.toList.map Char.toLower

/-- Whether a value is the symbol of a name, in any case. -/
def isSymbol (d : Datum) (name : String) : Bool :=
  match d with
  | .symbol s => sameName s name
  | _ => false

/-- Whether a value is anything but `nil`. -/
def isTruthy : Datum → Bool
  | .nil => false
  | _ => true

def asStr? : Datum → Option String
  | .str s => some s
  | _ => none

def asSymbol? : Datum → Option String
  | .symbol s => some s
  | _ => none

/-- The value of an integer. -/
def asInt? : Datum → Option Int64
  | .int n => some n
  | _ => none

/-- The elements of a list; `nil` has none. -/
def asList? : Datum → Option (List Datum)
  | .nil => some []
  | .list items => some items
  | _ => none

/-- A value without the `quote` around it, if there is one. -/
def unquote (d : Datum) : Datum :=
  match d with
  | .list [head, x] => if head.isSymbol "quote" then x else d
  | _ => d

end Datum

end LispBridge
