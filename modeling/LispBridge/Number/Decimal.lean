import LispBridge.Number.Binary64

/-!
Decimal numerals: reading them, and writing binary64 numbers with as few digits as read back.

* `readInt64?`: a whole number in the signed 64-bit range.
* `readBinary64?`: a numeral with point and exponent, rounded to the nearest number.
* `Binary64.shortest`: the fewest digits that read back, and of those the nearest.
* `Binary64.render`: those digits with a point, or with an exponent outside `[10^-4, 10^16)`.
-/

namespace LispBridge

/-! ### Digits -/

/-- Whether a character is an ASCII digit. -/
def isDigit (c : Char) : Bool :=
  '0' ≤ c && c ≤ '9'

/-- The number that ASCII digits denote in base ten, read one after another. -/
def ofDigitRun (cs : List Char) : Nat :=
  cs.foldl (fun n c => n * 10 + (c.toNat - '0'.toNat)) 0

/-- The longest run of digits that is read one after another. -/
def shortRun : Nat := 64

/-- The number that ASCII digits denote in base ten. A long run is halved as often as the count
allows, so that few products have a large factor. -/
def ofHalves : Nat → List Char → Nat
  | 0, cs => ofDigitRun cs
  | n + 1, cs =>
    if cs.length ≤ shortRun then ofDigitRun cs
    else
      let upper := cs.take (cs.length / 2)
      let lower := cs.drop (cs.length / 2)
      ofHalves n upper * Nat.pow 10 lower.length + ofHalves n lower

/-- The number that ASCII digits denote in base ten. -/
def ofDigits (cs : List Char) : Nat :=
  ofHalves 64 cs

/-- Digits that are read after a number stand behind it. -/
theorem foldl_digits (cs : List Char) (n : Nat) :
    cs.foldl (fun n c => n * 10 + (c.toNat - '0'.toNat)) n =
      n * Nat.pow 10 cs.length + ofDigitRun cs := by
  unfold ofDigitRun
  induction cs generalizing n with
  | nil => simp
  | cons c cs ih =>
    rw [List.foldl_cons, List.foldl_cons, ih, ih (0 * 10 + _), List.length_cons]
    simp only [Nat.pow_eq, Nat.pow_succ, Nat.add_mul, Nat.zero_mul, Nat.zero_add]
    rw [Nat.mul_assoc, Nat.mul_comm 10, Nat.add_assoc]

/-- The digits of a number are those of its upper part and those of its lower part. -/
theorem ofDigitRun_append (as bs : List Char) :
    ofDigitRun (as ++ bs) = ofDigitRun as * Nat.pow 10 bs.length + ofDigitRun bs := by
  rw [← foldl_digits bs (ofDigitRun as)]
  simp only [ofDigitRun, List.foldl_append]

/-- Halving a run does not change what it denotes. -/
theorem ofHalves_eq (n : Nat) (cs : List Char) : ofHalves n cs = ofDigitRun cs := by
  induction n generalizing cs with
  | zero => rfl
  | succ n ih =>
    rw [ofHalves]
    split
    · rfl
    · dsimp only
      rw [ih, ih, ← ofDigitRun_append, List.take_append_drop]

/-- Digits denote what they denote when read one after another. -/
theorem ofDigits_eq_run (cs : List Char) : ofDigits cs = ofDigitRun cs :=
  ofHalves_eq 64 cs

/-- The base ten digits of a number. -/
def digits (n : Nat) : List Char :=
  Nat.toDigits 10 n

/-- A sign in front of a numeral, and what follows it. -/
def takeSign : List Char → Bool × List Char
  | '-' :: r => (true, r)
  | '+' :: r => (false, r)
  | r => (false, r)

/-! ### Whole numbers -/

/-- Reads an optional sign and digits, if the number fits in 64 signed bits. -/
def readInt64? (cs : List Char) : Option Int64 :=
  let (negative, ds) := takeSign cs
  if ds ≠ [] ∧ ds.all isDigit then
    let n : Int := if negative then -(ofDigits ds : Int) else ofDigits ds
    if Int64.minValue.toInt ≤ n ∧ n ≤ Int64.maxValue.toInt then some (Int64.ofInt n) else none
  else
    none

/-- The decimal text of a whole number. -/
def renderInt (n : Int) : List Char :=
  if n < 0 then '-' :: digits n.natAbs else digits n.natAbs

/-! ### Numerals with a point or an exponent -/

/-- The size of an exponent. Once it has reached `2 ^ 16` no more digits are taken: a numeral would
need as many digits before it to tell the difference. -/
def exponentSize (ds : List Char) : Nat :=
  ds.foldl (fun n c => if n < Nat.pow 2 16 then n * 10 + (c.toNat - '0'.toNat) else n) 0

/-- An exponent: nothing, or `e` or `E` with an optional sign and at least one digit. -/
def readExponent? : List Char → Option Int
  | [] => some 0
  | c :: r =>
    let (negative, ds) := takeSign r
    if (c = 'e' ∨ c = 'E') ∧ ds ≠ [] ∧ ds.all isDigit then
      some (if negative then -(exponentSize ds : Int) else exponentSize ds)
    else
      none

/-- What follows the point, if there is one: the digits of the fraction and the rest. -/
def takeFraction : List Char → List Char × List Char
  | '.' :: r => (r.takeWhile isDigit, r.dropWhile isDigit)
  | r => ([], r)

/-- Reads a numeral: sign, digits, point, digits, exponent, with a digit before or after the
point. The result is the nearest binary64 number. -/
def readBinary64? (cs : List Char) : Option Binary64 :=
  let (negative, body) := takeSign cs
  let whole := body.takeWhile isDigit
  let (fraction, rest) := takeFraction (body.dropWhile isDigit)
  if whole = [] ∧ fraction = [] then none
  else (readExponent? rest).map fun exponent =>
    .ofDecimal negative (ofDigits (whole ++ fraction)) (exponent - fraction.length)

/-! ### Shortest decimals -/

namespace Binary64

/-- A decimal magnitude: `significand * 10 ^ exponent`. -/
structure Decimal where
  significand : Nat
  exponent : Int
deriving DecidableEq, Repr

/-- The same magnitude without zeros at the end of its significand. -/
def Decimal.stripZeros (d : Decimal) : Decimal :=
  go d.significand d.exponent d.significand
where
  /-- Divides by ten as long as that leaves no remainder. -/
  go (n : Nat) (e : Int) : Nat → Decimal
    | 0 => ⟨n, e⟩
    | fuel + 1 => if n ≠ 0 ∧ n % 10 = 0 then go (n / 10) (e + 1) fuel else ⟨n, e⟩

/-- The magnitude `m * 2 ^ q` as a fraction. -/
def fraction (m : Nat) (q : Int) : Nat × Nat :=
  if q ≥ 0 then (m * Nat.pow 2 q.toNat, 1) else (m, Nat.pow 2 (-q).toNat)

/-- The magnitude `m * 2 ^ q` written out in full: every such number is a finite decimal. -/
def exactDecimal (m : Nat) (q : Int) : Decimal :=
  if q ≥ 0 then ⟨m * Nat.pow 2 q.toNat, 0⟩ else ⟨m * Nat.pow 5 (-q).toNat, q⟩

/-- The least `k` with `num / den < 10 ^ k`, searched upwards from a lower bound. -/
def decimalPoint (num den : Nat) : Int :=
  let guess : Int := ((num.log2 : Int) - (den.log2 : Int) - 1) * 30102 / 100000 - 1
  go guess 8
where
  /-- Raises the guess until the power of ten exceeds the fraction. -/
  go (k : Int) : Nat → Int
    | 0 => k
    | fuel + 1 =>
      let exceeds : Bool :=
        if k ≥ 0 then num < den * Nat.pow 10 k.toNat else num * Nat.pow 10 (-k).toNat < den
      if exceeds then k else go (k + 1) fuel

/-- The two neighbours of `num / den` among the multiples of `10 ^ e`, the nearer first; of two
equally near ones the greater. -/
def neighbours (num den : Nat) (e : Int) : List Decimal :=
  let (n, d) :=
    if e ≥ 0 then (num, den * Nat.pow 10 e.toNat) else (num * Nat.pow 10 (-e).toNat, den)
  let q := n / d
  if 2 * (n % d) < d then [⟨q, e⟩, ⟨q + 1, e⟩] else [⟨q + 1, e⟩, ⟨q, e⟩]

/-- The fewest digits that read back as `x = m * 2 ^ q`, and of those the nearest to it. With
none among the first seventeen lengths it is the number written out in full. -/
def shortest (x : Binary64) (negative : Bool) (m : Nat) (q : Int) : Decimal :=
  let (num, den) := fraction m q
  let k := decimalPoint num den
  let candidates := (List.range 17).flatMap fun i => neighbours num den (k - (i + 1 : Nat))
  let readsBack (d : Decimal) : Bool := ofDecimal negative d.significand d.exponent = x
  ((candidates.find? readsBack).getD (exactDecimal m q)).stripZeros

/-- Digits with a point after `point` of them, padded with zeros so that both sides have one. -/
def positional (ds : List Char) (point : Int) : List Char :=
  if point ≤ 0 then
    '0' :: '.' :: (List.replicate (-point).toNat '0' ++ ds)
  else if ds.length ≤ point.toNat then
    ds ++ List.replicate (point.toNat - ds.length) '0' ++ ['.', '0']
  else
    ds.take point.toNat ++ '.' :: ds.drop point.toNat

/-- Digits with a point after the first of them, if there are more, and the exponent that makes
up for it. -/
def scientific (ds : List Char) (point : Int) : List Char :=
  match ds with
  | [] => []
  | [d] => d :: 'e' :: renderInt (point - 1)
  | d :: r => d :: '.' :: r ++ 'e' :: renderInt (point - 1)

/-- Digits in the notation that suits their size: an exponent is used below `10 ^ -4` and from
`10 ^ 16` on. -/
def layout (ds : List Char) (point : Int) : List Char :=
  if -3 ≤ point ∧ point ≤ 16 then positional ds point else scientific ds point

/-- The text of a number: the shortest decimal that reads back, always with a point or an
exponent. -/
def render (x : Binary64) : List Char :=
  match x.view with
  | .nan => "NaN".toList
  | .infinite negative => if negative then "-inf".toList else "inf".toList
  | .finite negative m q =>
    let body :=
      if m = 0 then ['0', '.', '0']
      else
        let d := x.shortest negative m q
        let ds := digits d.significand
        layout ds (ds.length + d.exponent)
    if negative then '-' :: body else body

end Binary64

end LispBridge
