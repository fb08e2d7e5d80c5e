import LispBridge.Number.Decimal
import LispBridge.Toml.Text

/-!
Numbers and moments of TOML.

* `Toml.integer`: a whole number in base ten, sixteen, eight or two.
* `Toml.float`: a number with a fraction or an exponent, an infinity or no number.
* `Toml.moment`: a date, a time of day, or both. It is checked, and its value is not kept.
-/

namespace LispBridge.Toml

open Scan

/-! ### Digits -/

/-- Digits of a kind, at least one; an underscore may stand between two. -/
def digitRun (p : Char → Bool) : Scan (List Char) := do
  let d ← satisfy p
  let ds ← many (satisfy p <|> (do char '_'; satisfy p))
  return d :: ds

/-- A sign, as it is written. -/
def sign : Scan (List Char) :=
  (do char '+'; return ['+']) <|> (do char '-'; return ['-']) <|> pure []

/-- A whole number in base ten: no zero stands in front of another digit. -/
def wholeNumber : Scan (List Char) := do
  let s ← sign
  (do char '0'; return s ++ ['0']) <|> (do return s ++ (← digitRun isDigit))

/-! ### Whole numbers -/

/-- A whole number in another base, behind the letter of that base. -/
def inBase (letter : Char) (base : Nat) : Scan Int64 := do
  literal ['0', letter]
  let ds ← digitRun fun c => (hexValue? c).any (· < base)
  let n := ds.foldl (fun n c => n * base + (hexValue? c).getD 0) 0
  if (n : Int) ≤ Int64.maxValue.toInt then return Int64.ofInt n else failure

/-- A whole number in the signed 64-bit range. -/
def integer : Scan Int64 :=
  inBase 'x' 16 <|> inBase 'o' 8 <|> inBase 'b' 2 <|> do
    match readInt64? (← wholeNumber) with
    | some n => return n
    | none => failure

/-! ### Numbers with a fraction or an exponent -/

/-- A fraction, with its point. -/
def fraction : Scan (List Char) := do
  char '.'
  return '.' :: (← digitRun isDigit)

/-- An exponent, with its letter. -/
def exponent : Scan (List Char) := do
  let _ ← satisfy fun c => c = 'e' || c = 'E'
  let s ← sign
  return 'e' :: s ++ (← digitRun isDigit)

/-- An infinity, or no number. -/
def special : Scan Binary64 := do
  let s ← sign
  (do literal "inf".toList; return .infinity (s = ['-']))
    <|> (do literal "nan".toList; return ⟨0x7ff8000000000000⟩)

/-- A number with a fraction or an exponent. One that is too great is refused. -/
def float : Scan Binary64 :=
  special <|> do
    let whole ← wholeNumber
    let rest ← (do return (← fraction) ++ (← exponent)) <|> fraction <|> exponent
    match readBinary64? (whole ++ rest) with
    | some x => if x = .infinity false then failure else return x
    | none => failure

/-! ### Moments -/

/-- A number in exactly so many digits. -/
def fixedNumber : Nat → Nat → Scan Nat
  | 0, n => pure n
  | digits + 1, n => do
    let c ← satisfy isDigit
    fixedNumber digits (n * 10 + ofDigits [c])

/-- A number in two digits, within bounds. -/
def twoDigits (least greatest : Nat) : Scan Nat := do
  let n ← fixedNumber 2 0
  if least ≤ n ∧ n ≤ greatest then return n else failure

def daysInMonth (year month : Nat) : Nat :=
  if month = 2 then
    if year % 4 = 0 ∧ (year % 100 ≠ 0 ∨ year % 400 = 0) then 29 else 28
  else if month = 4 ∨ month = 6 ∨ month = 9 ∨ month = 11 then 30
  else 31

/-- A day of the calendar. -/
def date : Scan Unit := do
  let year ← fixedNumber 4 0
  char '-'
  let month ← twoDigits 1 12
  char '-'
  let _ ← twoDigits 1 (daysInMonth year month)

/-- A time of day. There may be a leap second. -/
def time : Scan Unit := do
  let _ ← twoDigits 0 23
  char ':'
  let _ ← twoDigits 0 59
  char ':'
  let _ ← twoDigits 0 60
  let _ ← optional (do
    char '.'
    takeWhile1 isDigit)

/-- What a time is off from the universal time. -/
def offset : Scan Unit :=
  (do let _ ← satisfy fun c => c = 'Z' || c = 'z') <|> do
    let _ ← satisfy fun c => c = '+' || c = '-'
    let _ ← twoDigits 0 23
    char ':'
    let _ ← twoDigits 0 59

/-- A date, a time of day, or both. -/
def moment : Scan Unit :=
  (do
    date
    let _ ← optional (do
      let _ ← satisfy fun c => c = 'T' || c = 't' || c = ' '
      time
      optional offset)) <|> time

end LispBridge.Toml
