/-!
Binary64 numbers as bit patterns, with exact arithmetic on naturals only.

* `Binary64.view`: the sign, significand and power of two that a pattern stands for.
* `Binary64.nearest`: the pattern nearest to a positive fraction, a tie going to the even
  significand.
* `Binary64.ofDecimal`: the pattern nearest to `significand * 10 ^ exponent`.
-/

namespace LispBridge

/-- A binary64 number, given by its bit pattern. -/
structure Binary64 where
  bits : UInt64
deriving DecidableEq, Repr, Inhabited

namespace Binary64

/-! ### The meaning of a pattern -/

/-- What a bit pattern stands for: the magnitude of a finite number is
`significand * 2 ^ exponent`. -/
inductive View where
  | nan
  | infinite (negative : Bool)
  | finite (negative : Bool) (significand : Nat) (exponent : Int)
deriving DecidableEq, Repr

/-- The sign bit. -/
def isNegative (x : Binary64) : Bool :=
  x.bits.toNat / Nat.pow 2 63 = 1

/-- The eleven bits of the exponent. -/
def exponentField (x : Binary64) : Nat :=
  x.bits.toNat / Nat.pow 2 52 % Nat.pow 2 11

/-- The fifty-two bits of the fraction. -/
def fractionField (x : Binary64) : Nat :=
  x.bits.toNat % Nat.pow 2 52

/-- The sign, significand and exponent of a pattern. Subnormal numbers have exponent field zero
and no hidden bit. -/
def view (x : Binary64) : View :=
  if x.exponentField = 2047 then
    if x.fractionField = 0 then .infinite x.isNegative else .nan
  else if x.exponentField = 0 then
    .finite x.isNegative x.fractionField (-1074)
  else
    .finite x.isNegative (Nat.pow 2 52 + x.fractionField) ((x.exponentField : Int) - 1075)

/-- Neither an infinity nor a NaN. -/
def IsFinite (x : Binary64) : Prop :=
  x.exponentField ≠ 2047

instance (x : Binary64) : Decidable x.IsFinite :=
  inferInstanceAs (Decidable (_ ≠ _))

/-! ### Rounding -/

/-- The pattern with the given sign and magnitude bits. -/
def withSign (negative : Bool) (magnitude : Nat) : Binary64 :=
  ⟨UInt64.ofNat (magnitude + if negative then Nat.pow 2 63 else 0)⟩

def infinityBits : Nat := 2047 * Nat.pow 2 52

/-- Infinity of the given sign. -/
def infinity (negative : Bool) : Binary64 :=
  withSign negative infinityBits

/-- The natural number nearest to `num / den`; a tie goes to the even one. -/
def roundHalfEven (num den : Nat) : Nat :=
  let q := num / den
  let r := num % den
  if 2 * r < den ∨ (2 * r = den ∧ q % 2 = 0) then q else q + 1

/-- The power of two of the last place of the binary64 numbers around `num / den`: the one that
leaves a quotient of 53 bits, and no less than that of the subnormal numbers. -/
def lastPlace (num den : Nat) : Int :=
  let guess : Int := (num.log2 : Int) - (den.log2 : Int) - 52
  let fits : Bool :=
    if guess ≥ 0 then den * Nat.pow 2 (52 + guess.toNat) ≤ num
    else den * Nat.pow 2 52 ≤ num * Nat.pow 2 (-guess).toNat
  max (if fits then guess else guess - 1) (-1074)

/-- The magnitude bits nearest to the positive fraction `num / den`. The exponent field is added
to the rounded significand, so that a carry out of the significand raises it. -/
def nearestBits (num den : Nat) : Nat :=
  let place := lastPlace num den
  let significand :=
    if place ≥ 0 then roundHalfEven num (den * Nat.pow 2 place.toNat)
    else roundHalfEven (num * Nat.pow 2 (-place).toNat) den
  min ((place + 1074).toNat * Nat.pow 2 52 + significand) infinityBits

/-- The number nearest to the fraction `num / den`, with the given sign; a tie goes to the even
significand, and what is too large is infinite. -/
def nearest (negative : Bool) (num den : Nat) : Binary64 :=
  withSign negative (if num = 0 then 0 else nearestBits num den)

/-- The number nearest to `significand * 10 ^ exponent`. Exponents far outside the range settle
the answer without arithmetic on large powers: above `10 ^ 400` everything is infinite, and
`significand` has fewer than `(bits * 31) / 100 + 1` decimal digits. -/
def ofDecimal (negative : Bool) (significand : Nat) (exponent : Int) : Binary64 :=
  if significand = 0 then withSign negative 0
  else if exponent > 400 then infinity negative
  else if exponent + ((significand.log2 + 1) * 31 / 100 + 1 : Nat) < -330 then withSign negative 0
  else if exponent ≥ 0 then nearest negative (significand * Nat.pow 10 exponent.toNat) 1
  else nearest negative significand (Nat.pow 10 (-exponent).toNat)

end Binary64

end LispBridge
