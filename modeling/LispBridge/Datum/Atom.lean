import LispBridge.Datum.Basic
import LispBridge.Number.Decimal
import LispBridge.Text.Blank

/-!
Atoms: which characters end a token, and what value a token stands for.
-/

namespace LispBridge.Datum

/-- Whether a character ends a token. -/
def isDelimiter (c : Char) : Bool :=
  Text.isBlank c || c = '(' || c = ')' || c = '"' || c = '\'' || c = ';'

/-- Whether a token is made of the characters of numerals, a digit among them. -/
def isNumeral (cs : List Char) : Bool :=
  cs.any isDigit &&
    cs.all fun c => isDigit c || c = '+' || c = '-' || c = '.' || c = 'e' || c = 'E'

/-- The value of a token: `nil` and `t` in any case, an integer of 64 bits, another numeral, or
else a symbol. -/
def ofToken (cs : List Char) : Datum :=
  let folded := cs.map Char.toLower
  if folded = ['n', 'i', 'l'] then .nil
  else if folded = ['t'] then .t
  else
    match readInt64? cs with
    | some n => .int n
    | none =>
      match if isNumeral cs then readBinary64? cs else none with
      | some x => .float x
      | none => .symbol (String.ofList cs)

end LispBridge.Datum
