import Mathlib.Data.List.TakeWhile
import Mathlib.Tactic.IntervalCases
import LispBridge.Datum.Atom
import LispBridge.Proofs.Number.Shortest

/-!
Numbers survive being written: a whole number or a finite binary64 number is read back from its
text.

* `readInt64?_renderInt`: whole numbers.
* `Numeral`: a numeral with a point or an exponent, taken apart. It is read as a binary64 number
  and not as a whole one.
* `exists_numeral_layout`: digits in either notation are such a numeral.
* `readBinary64?_render`: finite numbers.
-/

namespace LispBridge

/-! ### Digits -/

/-- The digits of a number denote it. -/
theorem ofDigits_digits (n : Nat) : ofDigits (digits n) = n := by
  have read := Nat.ofDigitChars_ten_toDigits (n := n)
  rw [Nat.ofDigitChars_eq_foldl] at read
  rw [ofDigits_eq_run, ofDigitRun, digits]
  simpa only [Nat.mul_comm 10] using read

theorem isDigit_of_mem_digits {n : Nat} {c : Char} (mem : c ∈ digits n) : isDigit c = true := by
  have digit := Nat.isDigit_of_mem_toDigits (by omega) (Nat.le_refl 10) mem
  simpa [isDigit, Char.isDigit, Char.le_def] using digit

theorem digits_ne_nil (n : Nat) : digits n ≠ [] :=
  Nat.toDigits_ne_nil

theorem ofDigits_append (as bs : List Char) :
    ofDigits (as ++ bs) = ofDigits as * 10 ^ bs.length + ofDigits bs := by
  simp only [ofDigits_eq_run, ofDigitRun_append, Nat.pow_eq]

theorem ofDigits_zeros (k : Nat) : ofDigits (List.replicate k '0') = 0 := by
  induction k with
  | zero => rfl
  | succ k ih =>
    rw [List.replicate_succ', ofDigits_append, ih]
    rfl

theorem takeSign_of_digit {c : Char} (digit : isDigit c = true) (cs : List Char) :
    takeSign (c :: cs) = (false, c :: cs) := by
  have minus : c ≠ '-' := by
    rintro rfl
    cases digit
  have plus : c ≠ '+' := by
    rintro rfl
    cases digit
  unfold takeSign
  split
  · next same => exact absurd (List.cons.inj same).1 minus
  · next same => exact absurd (List.cons.inj same).1 plus
  · rfl

theorem takeSign_digits_append (n : Nat) (cs : List Char) :
    takeSign (digits n ++ cs) = (false, digits n ++ cs) := by
  obtain ⟨c, r, split⟩ := List.exists_cons_of_ne_nil (digits_ne_nil n)
  have digit : isDigit c = true := isDigit_of_mem_digits (by rw [split]; exact List.mem_cons_self)
  rw [split, List.cons_append, takeSign_of_digit digit]

/-- The sign of a rendered whole number is taken off again. -/
theorem takeSign_renderInt (n : Int) :
    takeSign (renderInt n) = (decide (n < 0), digits n.natAbs) := by
  rw [renderInt]
  by_cases below : n < 0
  · rw [if_pos below, decide_eq_true below]
    rfl
  · rw [if_neg below, decide_eq_false below]
    simpa using takeSign_digits_append n.natAbs []

/-- A whole number is read back from its text. -/
theorem readInt64?_renderInt (n : Int64) : readInt64? (renderInt n.toInt) = some n := by
  have whole : (digits n.toInt.natAbs).all isDigit = true :=
    List.all_eq_true.mpr fun c mem => isDigit_of_mem_digits mem
  have value : (if decide (n.toInt < 0) = true then -(n.toInt.natAbs : Int) else n.toInt.natAbs) =
      n.toInt := by
    simp only [decide_eq_true_eq]
    split
    · omega
    · omega
  have bounds : Int64.minValue.toInt ≤ n.toInt ∧ n.toInt ≤ Int64.maxValue.toInt :=
    ⟨n.minValue_le_toInt, n.toInt_le⟩
  rw [readInt64?, takeSign_renderInt]
  simp only [ofDigits_digits, value, digits_ne_nil, whole, ne_eq, not_false_eq_true, and_self,
    if_true, if_pos bounds, Int64.ofInt_toInt]

/-! ### Exponents -/

/-- No exponent with fewer than six digits is cut off. -/
theorem exponentSize_digits {n : Nat} (small : n < 10 * 2 ^ 16) : exponentSize (digits n) = n := by
  induction n using Nat.strongRecOn with
  | ind n ih =>
    by_cases single : n < 10
    · rw [digits, Nat.toDigits_of_lt_base single, exponentSize]
      interval_cases n <;> rfl
    · have shorter := ih (n / 10) (by omega) (by omega)
      rw [digits, exponentSize] at shorter
      rw [digits, Nat.toDigits_of_base_le (by omega) (by omega), exponentSize, List.foldl_append, shorter]
      have last : (n % 10).digitChar.toNat - '0'.toNat = n % 10 := by
        have : n % 10 < 10 := Nat.mod_lt _ (by omega)
        interval_cases n % 10 <;> rfl
      rw [List.foldl_cons, List.foldl_nil, last, if_pos (by rw [Nat.pow_eq]; omega)]
      omega

theorem readExponent?_renderInt {k : Int} (small : k.natAbs < 10 * 2 ^ 16) :
    readExponent? ('e' :: renderInt k) = some k := by
  have whole : (digits k.natAbs).all isDigit = true :=
    List.all_eq_true.mpr fun c mem => isDigit_of_mem_digits mem
  have value : (if decide (k < 0) = true then -(k.natAbs : Int) else k.natAbs) = k := by
    simp only [decide_eq_true_eq]
    split
    · omega
    · omega
  rw [readExponent?, takeSign_renderInt]
  simp only [exponentSize_digits small, value, digits_ne_nil, whole, ne_eq, not_false_eq_true,
    and_self, true_or, if_true]

/-! ### Numerals taken apart -/

/-- Whether a character may stand in a numeral. -/
def isNumeralChar (c : Char) : Bool :=
  isDigit c || c = '+' || c = '-' || c = '.' || c = 'e' || c = 'E'

/-- A numeral without a sign, taken apart: digits, and behind them a point or an exponent. -/
structure Numeral (whole tail fraction rest : List Char) (exponent : Int) : Prop where
  some_whole : whole ≠ []
  whole_digits : ∀ c ∈ whole, isDigit c = true
  tail_marked : ∃ c r, tail = c :: r ∧ (c = '.' ∨ c = 'e')
  tail_chars : ∀ c ∈ tail, isNumeralChar c = true
  splits : takeFraction tail = (fraction, rest)
  reads : readExponent? rest = some exponent

/-- A text with a minus sign in front of it, if it is negative. -/
def signed (negative : Bool) (cs : List Char) : List Char :=
  if negative then '-' :: cs else cs

namespace Numeral

variable {whole tail fraction rest : List Char} {exponent : Int}

theorem takeSign_signed (n : Numeral whole tail fraction rest exponent) (negative : Bool) :
    takeSign (signed negative (whole ++ tail)) = (negative, whole ++ tail) := by
  cases negative with
  | true => rfl
  | false =>
    obtain ⟨c, r, split⟩ := List.exists_cons_of_ne_nil n.some_whole
    have digit := n.whole_digits c (by rw [split]; exact List.mem_cons_self)
    rw [signed, split, List.cons_append]
    exact takeSign_of_digit digit _

theorem not_digit (n : Numeral whole tail fraction rest exponent) :
    ∃ c r, tail = c :: r ∧ isDigit c = false := by
  obtain ⟨c, r, split, mark⟩ := n.tail_marked
  refine ⟨c, r, split, ?_⟩
  rcases mark with rfl | rfl
  · rfl
  · rfl

theorem readBinary64? (n : Numeral whole tail fraction rest exponent) (negative : Bool) :
    readBinary64? (signed negative (whole ++ tail)) =
      some (.ofDecimal negative (ofDigits (whole ++ fraction)) (exponent - fraction.length)) := by
  obtain ⟨c, r, split, mark⟩ := n.not_digit
  have front : (whole ++ tail).takeWhile isDigit = whole := by
    rw [List.takeWhile_append_of_pos n.whole_digits, split, List.takeWhile_cons_of_neg (by simp [mark]),
      List.append_nil]
  have back : (whole ++ tail).dropWhile isDigit = tail := by
    rw [List.dropWhile_append_of_pos n.whole_digits, split, List.dropWhile_cons_of_neg (by simp [mark])]
  rw [LispBridge.readBinary64?, n.takeSign_signed]
  simp only [front, back, n.splits, n.some_whole, false_and, if_false, n.reads, Option.map_some]

theorem readInt64?_eq_none (n : Numeral whole tail fraction rest exponent) (negative : Bool) :
    readInt64? (signed negative (whole ++ tail)) = none := by
  obtain ⟨c, r, split, mark⟩ := n.not_digit
  have other : (whole ++ tail).all isDigit = false := by
    rw [split, List.all_append, List.all_cons, mark, Bool.false_and, Bool.and_false]
  rw [readInt64?, n.takeSign_signed]
  simp [other]

theorem isNumeral (n : Numeral whole tail fraction rest exponent) (negative : Bool) :
    Datum.isNumeral (signed negative (whole ++ tail)) = true := by
  obtain ⟨c, r, split⟩ := List.exists_cons_of_ne_nil n.some_whole
  have digit := n.whole_digits c (by rw [split]; exact List.mem_cons_self)
  have chars : (whole ++ tail).all isNumeralChar = true := by
    rw [List.all_append, Bool.and_eq_true, List.all_eq_true, List.all_eq_true]
    refine ⟨?_, n.tail_chars⟩
    intro c mem
    rw [isNumeralChar, n.whole_digits c mem]
    rfl
  have some_digit : (whole ++ tail).any isDigit = true := by
    rw [split, List.cons_append, List.any_cons, digit, Bool.true_or]
  cases negative with
  | true =>
    show ((isDigit '-' || (whole ++ tail).any isDigit) &&
      (isNumeralChar '-' && (whole ++ tail).all isNumeralChar)) = true
    rw [some_digit, chars]
    rfl
  | false =>
    show ((whole ++ tail).any isDigit && (whole ++ tail).all isNumeralChar) = true
    rw [some_digit, chars]
    rfl

/-- Digits around a point. -/
theorem pointed {whole fraction : List Char} (some : whole ≠ [])
    (whole_digits : ∀ c ∈ whole, isDigit c = true)
    (fraction_digits : ∀ c ∈ fraction, isDigit c = true) :
    Numeral whole ('.' :: fraction) fraction [] 0 where
  some_whole := some
  whole_digits := whole_digits
  tail_marked := ⟨'.', fraction, rfl, .inl rfl⟩
  tail_chars := by
    intro c mem
    rcases List.mem_cons.mp mem with rfl | mem
    · rfl
    · rw [isNumeralChar, fraction_digits c mem]
      rfl
  splits := by
    rw [takeFraction, List.takeWhile_eq_self_iff.mpr fraction_digits,
      List.dropWhile_eq_nil_iff.mpr fraction_digits]
  reads := rfl

end Numeral

theorem isNumeralChar_of_mem_renderInt {n : Int} {c : Char} (mem : c ∈ renderInt n) :
    isNumeralChar c = true := by
  have digit (mem : c ∈ digits n.natAbs) : isNumeralChar c = true := by
    rw [isNumeralChar, isDigit_of_mem_digits mem]
    rfl
  rw [renderInt] at mem
  split at mem
  · rcases List.mem_cons.mp mem with rfl | mem
    · rfl
    · exact digit mem
  · exact digit mem

namespace Numeral

/-- A digit, digits behind a point if there are more, and an exponent. -/
theorem scientific {d : Char} {ds : List Char} (digit : isDigit d = true)
    (others : ∀ c ∈ ds, isDigit c = true) {k : Int} (small : k.natAbs < 10 * 2 ^ 16) :
    ∃ tail rest, Numeral [d] tail ds rest k ∧
      Binary64.scientific (d :: ds) (k + 1) = [d] ++ tail := by
  have only : ∀ c ∈ [d], isDigit c = true := by
    intro c mem
    rwa [List.mem_singleton.mp mem]
  have chars : ∀ c ∈ 'e' :: renderInt k, isNumeralChar c = true := by
    intro c mem
    rcases List.mem_cons.mp mem with rfl | mem
    · rfl
    · exact isNumeralChar_of_mem_renderInt mem
  have exponent : k + 1 - 1 = k := by omega
  cases ds with
  | nil =>
    refine ⟨'e' :: renderInt k, 'e' :: renderInt k, ⟨List.cons_ne_nil _ _, only,
      ⟨'e', _, rfl, .inr rfl⟩, chars, rfl, readExponent?_renderInt small⟩, ?_⟩
    rw [Binary64.scientific, exponent]
    rfl
  | cons d' r =>
    refine ⟨'.' :: (d' :: r ++ 'e' :: renderInt k), 'e' :: renderInt k, ⟨List.cons_ne_nil _ _, only,
      ⟨'.', _, rfl, .inl rfl⟩, ?_, ?_, readExponent?_renderInt small⟩, ?_⟩
    · intro c mem
      rcases List.mem_cons.mp mem with rfl | mem
      · rfl
      · rcases List.mem_append.mp mem with mem | mem
        · rw [isNumeralChar, others c mem]
          rfl
        · exact chars c mem
    · rw [takeFraction, List.takeWhile_append_of_pos others, List.dropWhile_append_of_pos others]
      simp [isDigit]
    · rw [Binary64.scientific, exponent]
      · rfl
      · exact List.cons_ne_nil _ _

end Numeral

/-! ### Numbers as numerals -/

namespace Binary64

theorem isDigit_of_mem_zeros (k : Nat) : ∀ c ∈ List.replicate k '0', isDigit c = true := by
  intro c mem
  rw [List.eq_of_mem_replicate mem]
  rfl

/-- Digits with the point among them, or in front of or behind padding zeros, are a numeral. -/
theorem exists_numeral_positional (s : Nat) (e : Int) :
    ∃ whole tail fraction rest exponent, Numeral whole tail fraction rest exponent ∧
      positional (digits s) ((digits s).length + e) = whole ++ tail ∧
      (ofDigits (whole ++ fraction) : ℚ) * 10 ^ (exponent - fraction.length) = s * 10 ^ e := by
  have all : ∀ c ∈ digits s, isDigit c = true := fun c mem => isDigit_of_mem_digits mem
  have zeros := isDigit_of_mem_zeros
  have some : 0 < (digits s).length := List.length_pos_iff.mpr (digits_ne_nil s)
  rw [positional]
  by_cases front : ((digits s).length : Int) + e ≤ 0
  · rw [if_pos front]
    generalize pad : (-(((digits s).length : Int) + e)).toNat = k
    refine ⟨['0'], _, List.replicate k '0' ++ digits s, [], 0,
      .pointed (List.cons_ne_nil _ _) (zeros 1) (List.forall_mem_append.mpr ⟨zeros k, all⟩), rfl,
      ?_⟩
    have value : ofDigits (['0'] ++ (List.replicate k '0' ++ digits s)) = s := by
      rw [← List.append_assoc, ← List.replicate_one, List.replicate_append_replicate,
        ofDigits_append, ofDigits_zeros, ofDigits_digits, Nat.zero_mul, Nat.zero_add]
    have exponent : (0 : Int) - (List.replicate k '0' ++ digits s).length = e := by
      rw [List.length_append, List.length_replicate]
      omega
    rw [value, exponent]
  rw [if_neg front]
  by_cases back : (digits s).length ≤ (((digits s).length : Int) + e).toNat
  · rw [if_pos back]
    obtain ⟨k, rfl⟩ := Int.eq_ofNat_of_zero_le (by omega : 0 ≤ e)
    have pad : (((digits s).length : Int) + k).toNat - (digits s).length = k := by omega
    rw [pad]
    refine ⟨digits s ++ List.replicate k '0', _, ['0'], [], 0,
      .pointed (by simp [digits_ne_nil]) (List.forall_mem_append.mpr ⟨all, zeros k⟩) (zeros 1), rfl,
      ?_⟩
    rw [List.append_assoc, ← List.replicate_one, List.replicate_append_replicate, ofDigits_append,
      ofDigits_zeros, ofDigits_digits, List.length_replicate, List.length_replicate, pow_succ]
    push_cast
    rw [add_zero, zpow_natCast, zpow_neg_one]
    field_simp
  · rw [if_neg back]
    generalize point : (((digits s).length : Int) + e).toNat = k at back
    have cut : (digits s).take k ≠ [] := by
      rw [← List.length_pos_iff, List.length_take]
      omega
    refine ⟨(digits s).take k, _, (digits s).drop k, [], 0,
      .pointed cut (fun c mem => all c (List.mem_of_mem_take mem))
        (fun c mem => all c (List.mem_of_mem_drop mem)), rfl, ?_⟩
    have exponent : (0 : Int) - ((digits s).drop k).length = e := by
      rw [List.length_drop]
      omega
    rw [List.take_append_drop, ofDigits_digits, exponent]

theorem exists_numeral_scientific (s : Nat) (e : Int)
    (small : ((digits s).length + e - 1).natAbs < 10 * 2 ^ 16) :
    ∃ whole tail fraction rest exponent, Numeral whole tail fraction rest exponent ∧
      scientific (digits s) ((digits s).length + e) = whole ++ tail ∧
      (ofDigits (whole ++ fraction) : ℚ) * 10 ^ (exponent - fraction.length) = s * 10 ^ e := by
  obtain ⟨d, ds, split⟩ := List.exists_cons_of_ne_nil (digits_ne_nil s)
  have all : ∀ c ∈ d :: ds, isDigit c = true := fun c mem => isDigit_of_mem_digits (split ▸ mem)
  obtain ⟨tail, rest, numeral, text⟩ := Numeral.scientific (all d List.mem_cons_self)
    (fun c mem => all c (List.mem_cons_of_mem d mem)) small
  refine ⟨[d], tail, ds, rest, _, numeral, ?_, ?_⟩
  · rw [← text, split, Int.sub_add_cancel]
  · have value : ofDigits ([d] ++ ds) = s := by
      rw [List.singleton_append, ← split, ofDigits_digits]
    have exponent : ((digits s).length : Int) + e - 1 - ds.length = e := by
      rw [split, List.length_cons]
      omega
    rw [value, exponent]

/-- Laid out in either notation, digits are a numeral of the same value. -/
theorem exists_numeral_layout (s : Nat) (e : Int)
    (small : ((digits s).length + e - 1).natAbs < 10 * 2 ^ 16) :
    ∃ whole tail fraction rest exponent, Numeral whole tail fraction rest exponent ∧
      layout (digits s) ((digits s).length + e) = whole ++ tail ∧
      (ofDigits (whole ++ fraction) : ℚ) * 10 ^ (exponent - fraction.length) = s * 10 ^ e := by
  rw [layout]
  split
  · exact exists_numeral_positional s e
  · exact exists_numeral_scientific s e small

theorem pow_le_of_digits {s : Nat} (some : 0 < s) : 10 ^ ((digits s).length - 1) ≤ s := by
  by_cases one : (digits s).length - 1 = 0
  · rw [one]
    exact some
  · by_contra less
    have fits := (Nat.length_toDigits_le_iff (b := 10) (by omega) (Nat.pos_of_ne_zero one)).mpr
      (Nat.lt_of_not_le less)
    rw [← digits] at fits
    omega

theorem lt_pow_digits (s : Nat) : s < 10 ^ (digits s).length :=
  (Nat.length_toDigits_le_iff (by omega) Nat.length_toDigits_pos).mp (Nat.le_refl _)

/-- Where the leading digit of a decimal stands, if the decimal is in the range of the numbers. -/
theorem place_bounds {s : Nat} {e : Int} (some : 0 < s)
    (notSmall : (10 : ℚ) ^ (-325 : Int) ≤ s * 10 ^ e)
    (notLarge : (s : ℚ) * 10 ^ e < 10 ^ (400 : Int)) :
    -325 < ((digits s).length : Int) + e ∧ ((digits s).length : Int) - 1 + e < 400 := by
  have length : 0 < (digits s).length := List.length_pos_iff.mpr (digits_ne_nil s)
  have ten : (0 : ℚ) < 10 ^ e := by positivity
  have least : (10 : ℚ) ^ ((digits s).length - 1) ≤ s := by exact_mod_cast pow_le_of_digits some
  have most : (s : ℚ) < 10 ^ (digits s).length := by exact_mod_cast lt_pow_digits s
  constructor
  · rw [← zpow_lt_zpow_iff_right₀ (by norm_num : (1 : ℚ) < 10)]
    calc (10 : ℚ) ^ (-325 : Int) ≤ s * 10 ^ e := notSmall
      _ < 10 ^ (digits s).length * 10 ^ e := by gcongr
      _ = 10 ^ (((digits s).length : Int) + e) := by
        rw [zpow_add₀ (by norm_num), zpow_natCast]
  · rw [← zpow_lt_zpow_iff_right₀ (by norm_num : (1 : ℚ) < 10)]
    calc (10 : ℚ) ^ (((digits s).length : Int) - 1 + e)
        = 10 ^ ((digits s).length - 1) * 10 ^ e := by
          rw [zpow_add₀ (by norm_num), ← zpow_natCast]
          congr 2
          omega
      _ ≤ s * 10 ^ e := by gcongr
      _ < 10 ^ (400 : Int) := notLarge

/-- A finite number is written as a numeral that reads back as the number. -/
theorem exists_numeral_render {x : Binary64} (finite : x.IsFinite) :
    ∃ negative whole tail fraction rest exponent, Numeral whole tail fraction rest exponent ∧
      x.render = signed negative (whole ++ tail) ∧
      ofDecimal negative (ofDigits (whole ++ fraction)) (exponent - fraction.length) = x := by
  obtain ⟨negative, m, q, seen⟩ : ∃ negative m q, x.view = .finite negative m q := by
    rw [view, if_neg finite]
    split
    · exact ⟨_, _, _, rfl⟩
    · exact ⟨_, _, _, rfl⟩
  rw [render, seen]
  dsimp only
  by_cases zero : m = 0
  · have only : ∀ c ∈ ['0'], isDigit c = true := List.forall_mem_singleton.mpr rfl
    have exact := nearest_fraction seen
    rw [nearest, if_pos ((fraction_eq_zero_iff m q).mpr zero)] at exact
    rw [if_pos zero]
    refine ⟨negative, ['0'], ['.', '0'], ['0'], [], 0,
      .pointed (List.cons_ne_nil _ _) only only, rfl, ?_⟩
    exact exact
  · have reads := ofDecimal_shortest seen
    obtain ⟨notSmall, notLarge⟩ := bounds_of_ofDecimal seen zero reads
    rw [if_neg zero]
    generalize x.shortest negative m q = d at reads notSmall notLarge
    obtain ⟨s, e⟩ := d
    dsimp only at reads notSmall notLarge ⊢
    have some : 0 < s := by
      by_contra none
      obtain rfl : s = 0 := by omega
      rw [Nat.cast_zero, zero_mul] at notSmall
      exact absurd notSmall (not_le.mpr (by positivity))
    obtain ⟨below, above⟩ := place_bounds some notSmall notLarge
    obtain ⟨whole, tail, fraction, rest, exponent, numeral, text, value⟩ :=
      exists_numeral_layout s e (by omega)
    refine ⟨negative, whole, tail, fraction, rest, exponent, numeral, by rw [text, signed], ?_⟩
    rw [ofDecimal_congr negative value, reads]

/-- A finite number is read back from its text. -/
theorem readBinary64?_render {x : Binary64} (finite : x.IsFinite) :
    readBinary64? x.render = some x := by
  obtain ⟨negative, _, _, _, _, _, numeral, text, value⟩ := exists_numeral_render finite
  rw [text, numeral.readBinary64?, value]

/-- The text of a finite number is not that of a whole number. -/
theorem readInt64?_render {x : Binary64} (finite : x.IsFinite) : readInt64? x.render = none := by
  obtain ⟨negative, _, _, _, _, _, numeral, text, _⟩ := exists_numeral_render finite
  rw [text, numeral.readInt64?_eq_none]

theorem isNumeral_render {x : Binary64} (finite : x.IsFinite) :
    Datum.isNumeral x.render = true := by
  obtain ⟨negative, _, _, _, _, _, numeral, text, _⟩ := exists_numeral_render finite
  rw [text, numeral.isNumeral]

end Binary64

end LispBridge
