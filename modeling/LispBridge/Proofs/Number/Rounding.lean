import Mathlib.Algebra.Order.Field.Power
import Mathlib.Data.Int.Log
import Mathlib.Data.Rat.Floor
import Mathlib.Tactic.FieldSimp
import Mathlib.Tactic.Linarith
import Mathlib.Tactic.NormNum
import Mathlib.Tactic.Positivity
import Mathlib.Tactic.Ring
import LispBridge.Number.Binary64

/-!
Rounding to binary64 looks at the value of a fraction or decimal only.

* `lastPlace_eq`: the place a fraction is rounded at, by the logarithm of its value.
* `nearest_congr`: equal fractions have the same nearest number.
* `nearestBits_of_large`, `nearestBits_of_small`: what is rounded to infinity, and to zero.
* `ofDecimal_eq_nearest`: the shortcuts for exponents far outside the range change nothing, so
  that decimals of the same value have the same nearest number (`ofDecimal_congr`).
-/

namespace LispBridge.Binary64

variable {num den num' den' : Nat}

/-! ### Rounding to a whole number -/

/-- A factor of both sides of a fraction does not change what it is rounded to. -/
theorem roundHalfEven_scale {k : Nat} (positive : 0 < k) (num den : Nat) :
    roundHalfEven (num * k) (den * k) = roundHalfEven num den := by
  have quotient : num * k / (den * k) = num / den := Nat.mul_div_mul_right num den positive
  have remainder : num * k % (den * k) = num % den * k := Nat.mul_mod_mul_right k num den
  have below : 2 * (num % den * k) < den * k ↔ 2 * (num % den) < den := by
    rw [← Nat.mul_assoc, Nat.mul_lt_mul_right positive]
  have tie : 2 * (num % den * k) = den * k ↔ 2 * (num % den) = den := by
    rw [← Nat.mul_assoc, Nat.mul_left_inj (Nat.ne_of_gt positive)]
  simp only [roundHalfEven, quotient, remainder, below, tie]

/-- Equal fractions are rounded alike. -/
theorem roundHalfEven_congr (pos : 0 < den) (pos' : 0 < den') (same : num * den' = num' * den) :
    roundHalfEven num den = roundHalfEven num' den' := by
  rw [← roundHalfEven_scale pos' num den, same, Nat.mul_comm den den', roundHalfEven_scale pos]

theorem roundHalfEven_mul {n : Nat} (pos : 0 < den) : roundHalfEven (n * den) den = n := by
  simp [roundHalfEven, pos]

theorem le_roundHalfEven {n : Nat} (pos : 0 < den) (le : n * den ≤ num) :
    n ≤ roundHalfEven num den := by
  have quotient : n ≤ num / den := (Nat.le_div_iff_mul_le pos).mpr le
  simp only [roundHalfEven]
  split
  · exact quotient
  · omega

theorem roundHalfEven_eq_zero (below : 2 * num < den) : roundHalfEven num den = 0 := by
  have small : num < den := by omega
  simp [roundHalfEven, Nat.div_eq_of_lt small, Nat.mod_eq_of_lt small, below]

/-! ### The last place -/

/-- Whether a fraction reaches a power of two is a matter of whole numbers. -/
theorem reaches_iff (pos : 0 < den) (num : Nat) (place : Int) :
    (if place ≥ 0 then decide (den * Nat.pow 2 (52 + place.toNat) ≤ num)
      else decide (den * Nat.pow 2 52 ≤ num * Nat.pow 2 (-place).toNat)) = true ↔
      (2 : ℚ) ^ (place + 52) ≤ (num : ℚ) / den := by
  have posq : (0 : ℚ) < den := by exact_mod_cast pos
  rw [le_div_iff₀ posq]
  by_cases up : place ≥ 0
  · obtain ⟨n, rfl⟩ := Int.eq_ofNat_of_zero_le up
    have cast : (2 : ℚ) ^ ((n : Int) + 52) * den = (den * 2 ^ (52 + n) : Nat) := by
      push_cast
      rw [zpow_add₀ two_ne_zero, zpow_natCast, pow_add]
      ring
    rw [cast, Nat.cast_le, if_pos up]
    simp
  · obtain ⟨n, down⟩ := Int.eq_ofNat_of_zero_le (by omega : 0 ≤ -place)
    obtain rfl : place = -(n : Int) := by omega
    have power : (0 : ℚ) < 2 ^ n := by positivity
    have shifted : (2 : ℚ) ^ (-(n : Int) + 52) * den * 2 ^ n = (den * 2 ^ 52 : Nat) := by
      rw [zpow_add₀ two_ne_zero, zpow_neg, zpow_natCast]
      push_cast
      field_simp
    rw [if_neg up, ← mul_le_mul_iff_of_pos_right power, shifted]
    norm_cast
    simp

theorem two_zpow_le_iff {r : ℚ} (pos : 0 < r) {k : Int} : (2 : ℚ) ^ k ≤ r ↔ k ≤ Int.log 2 r := by
  rw [← Int.zpow_le_iff_le_log one_lt_two pos, Nat.cast_ofNat]

theorem log2_bounds {n : Nat} (some : 0 < n) :
    (2 : ℚ) ^ (n.log2 : Int) ≤ n ∧ (n : ℚ) < 2 ^ ((n.log2 : Int) + 1) := by
  constructor
  · rw [zpow_natCast]
    exact_mod_cast Nat.log2_self_le some.ne'
  · have below := Nat.lt_log2_self (n := n)
    exact_mod_cast below

/-- The leading bits of a fraction's parts tell its own but for one place. -/
theorem log_div_bounds (some : 0 < num) (pos : 0 < den) :
    (num.log2 : Int) - den.log2 - 1 ≤ Int.log 2 ((num : ℚ) / den) ∧
      Int.log 2 ((num : ℚ) / den) < (num.log2 : Int) - den.log2 + 1 := by
  have posq : (0 : ℚ) < den := by exact_mod_cast pos
  have someq : (0 : ℚ) < num := by exact_mod_cast some
  have value : (0 : ℚ) < (num : ℚ) / den := by positivity
  obtain ⟨num_lo, num_hi⟩ := log2_bounds some
  obtain ⟨den_lo, den_hi⟩ := log2_bounds pos
  constructor
  · rw [← two_zpow_le_iff value, le_div_iff₀ posq]
    calc (2 : ℚ) ^ ((num.log2 : Int) - den.log2 - 1) * den
        ≤ 2 ^ ((num.log2 : Int) - den.log2 - 1) * 2 ^ ((den.log2 : Int) + 1) := by gcongr
      _ = 2 ^ (num.log2 : Int) := by
        rw [← zpow_add₀ two_ne_zero]
        congr 1
        omega
      _ ≤ num := num_lo
  · rw [← Int.lt_zpow_iff_log_lt one_lt_two value, Nat.cast_ofNat, div_lt_iff₀ posq]
    calc (num : ℚ) < 2 ^ ((num.log2 : Int) + 1) := num_hi
      _ = 2 ^ ((num.log2 : Int) - den.log2 + 1) * 2 ^ (den.log2 : Int) := by
        rw [← zpow_add₀ two_ne_zero]
        congr 1
        omega
      _ ≤ 2 ^ ((num.log2 : Int) - den.log2 + 1) * den := by gcongr

/-- The last place is that of the leading bit of the fraction, fifty-two places down. -/
theorem lastPlace_eq (some : 0 < num) (pos : 0 < den) :
    lastPlace num den = max (Int.log 2 ((num : ℚ) / den) - 52) (-1074) := by
  have posq : (0 : ℚ) < den := by exact_mod_cast pos
  have someq : (0 : ℚ) < num := by exact_mod_cast some
  have value : (0 : ℚ) < (num : ℚ) / den := by positivity
  obtain ⟨lower, upper⟩ := log_div_bounds some pos
  have fits := reaches_iff pos num ((num.log2 : Int) - den.log2 - 52)
  rw [two_zpow_le_iff value] at fits
  rw [lastPlace]
  congr 1
  by_cases h : Int.log 2 ((num : ℚ) / den) = (num.log2 : Int) - den.log2
  · rw [if_pos (fits.mpr (by omega))]
    omega
  · rw [if_neg (fun ok => by have := fits.mp ok; omega)]
    omega

/-! ### The nearest number -/

/-- Equal fractions have the same nearest number. -/
theorem nearest_congr (negative : Bool) (pos : 0 < den) (pos' : 0 < den')
    (same : num * den' = num' * den) : nearest negative num den = nearest negative num' den' := by
  by_cases none : num = 0
  · have none' : num' = 0 := by
      rw [none, Nat.zero_mul] at same
      rcases Nat.mul_eq_zero.mp same.symm with none' | none
      · exact none'
      · omega
    rw [nearest, nearest, if_pos none, if_pos none']
  · have some' : num' ≠ 0 := by
      rintro rfl
      rw [Nat.zero_mul] at same
      rcases Nat.mul_eq_zero.mp same with none' | none
      · exact none none'
      · omega
    have value : (num : ℚ) / den = num' / den' := by
      rw [div_eq_div_iff (by positivity) (by positivity)]
      exact_mod_cast same
    have place : lastPlace num den = lastPlace num' den' := by
      rw [lastPlace_eq (by omega) pos, lastPlace_eq (by omega) pos', value]
    have up (n : Nat) : roundHalfEven num (den * Nat.pow 2 n) =
        roundHalfEven num' (den' * Nat.pow 2 n) := by
      have power : 0 < Nat.pow 2 n := Nat.two_pow_pos n
      apply roundHalfEven_congr (Nat.mul_pos pos power) (Nat.mul_pos pos' power)
      rw [← Nat.mul_assoc, same, Nat.mul_assoc]
    have down (k : Nat) : roundHalfEven (num * k) den = roundHalfEven (num' * k) den' := by
      apply roundHalfEven_congr pos pos'
      rw [Nat.mul_right_comm, same, Nat.mul_right_comm]
    rw [nearest, nearest, if_neg none, if_neg some', nearestBits, nearestBits, place]
    simp only [up, down]

theorem nearestBits_of_up {n : Nat} (place : lastPlace num den = n) :
    nearestBits num den =
      min ((n + 1074) * 2 ^ 52 + roundHalfEven num (den * 2 ^ n)) infinityBits := by
  have up : (n : Int) ≥ 0 := Int.natCast_nonneg n
  have field : ((n : Int) + 1074).toNat = n + 1074 := by omega
  rw [nearestBits, place]
  simp only [if_pos up, field, Int.toNat_natCast, Nat.pow_eq]

theorem nearestBits_of_down {n : Nat} (place : lastPlace num den = -(n : Int)) :
    nearestBits num den =
      min ((1074 - n) * 2 ^ 52 + roundHalfEven (num * 2 ^ n) den) infinityBits := by
  cases n with
  | zero =>
    have flat : lastPlace num den = (0 : Nat) := place
    rw [nearestBits_of_up flat]
    simp
  | succ n =>
    have down : ¬-((n + 1 : Nat) : Int) ≥ 0 := by omega
    have field : (-((n + 1 : Nat) : Int) + 1074).toNat = 1074 - (n + 1) := by omega
    rw [nearestBits, place]
    simp only [if_neg down, field, neg_neg, Int.toNat_natCast, Nat.pow_eq]

theorem nearestBits_of_large (pos : 0 < den) (large : (2 : ℚ) ^ (1024 : Int) ≤ num / den) :
    nearestBits num den = infinityBits := by
  have value : (0 : ℚ) < (num : ℚ) / den := lt_of_lt_of_le (by positivity) large
  have some : 0 < num := by
    by_contra none
    obtain rfl : num = 0 := by omega
    simp at value
  have high := (two_zpow_le_iff value).mp large
  have place := lastPlace_eq some pos
  rw [max_eq_left (by omega)] at place
  obtain ⟨n, exponent⟩ := Int.eq_ofNat_of_zero_le (by omega : 0 ≤ lastPlace num den)
  have enough : den * 2 ^ (52 + n) ≤ num := by
    have reached : (2 : ℚ) ^ ((n : Int) + 52) ≤ num / den :=
      (two_zpow_le_iff value).mpr (by omega)
    rw [← reaches_iff pos] at reached
    simpa using reached
  have significand : 2 ^ 52 ≤ roundHalfEven num (den * 2 ^ n) := by
    apply le_roundHalfEven (by positivity)
    rw [Nat.mul_comm, Nat.mul_assoc, ← Nat.pow_add, Nat.add_comm]
    exact enough
  rw [nearestBits_of_up exponent, infinityBits, Nat.pow_eq]
  omega

theorem nearestBits_of_small (some : 0 < num) (pos : 0 < den)
    (small : (num : ℚ) / den < (2 : ℚ) ^ (-1075 : Int)) : nearestBits num den = 0 := by
  have posq : (0 : ℚ) < den := by exact_mod_cast pos
  have someq : (0 : ℚ) < num := by exact_mod_cast some
  have value : (0 : ℚ) < (num : ℚ) / den := by positivity
  have low : Int.log 2 ((num : ℚ) / den) < -1075 := by
    by_contra high
    exact absurd ((two_zpow_le_iff value).mpr (not_lt.mp high)) (not_le.mpr small)
  -- The exponent is kept as a variable: it is too large to be written out as a power.
  obtain ⟨n, bottom⟩ : ∃ n, n = 1074 := ⟨_, rfl⟩
  have place : lastPlace num den = -(n : Int) := by
    rw [lastPlace_eq some pos, max_eq_right (by omega), bottom]
    rfl
  have below : 2 * (num * 2 ^ n) < den := by
    have exponent : (-1075 : Int) = -((n + 1 : Nat) : Int) := by omega
    rw [exponent, zpow_neg, zpow_natCast, div_lt_iff₀ posq, inv_mul_eq_div,
      lt_div_iff₀ (by positivity)] at small
    have less : num * 2 ^ (n + 1) < den := by exact_mod_cast small
    rw [Nat.pow_succ, ← Nat.mul_assoc] at less
    omega
  rw [nearestBits_of_down place, roundHalfEven_eq_zero below, bottom, Nat.sub_self, Nat.zero_mul,
    Nat.add_zero, Nat.zero_min]

/-! ### Decimals -/

/-- The bound on the decimal digits of a number of `n` bits. -/
theorem two_pow_le_ten_pow (n : Nat) : 2 ^ n ≤ 10 ^ (n * 31 / 100 + 1) := by
  have hundredfold : (2 ^ n) ^ 100 ≤ (10 ^ (n * 31 / 100 + 1)) ^ 100 := by
    calc (2 ^ n) ^ 100 = (2 ^ 100) ^ n := by rw [← Nat.pow_mul, ← Nat.pow_mul, Nat.mul_comm]
      _ ≤ (10 ^ 31) ^ n := Nat.pow_le_pow_left (by norm_num) n
      _ = 10 ^ (31 * n) := by rw [← Nat.pow_mul]
      _ ≤ 10 ^ ((n * 31 / 100 + 1) * 100) := Nat.pow_le_pow_right (by omega) (by omega)
      _ = (10 ^ (n * 31 / 100 + 1)) ^ 100 := by rw [Nat.pow_mul]
  exact (Nat.pow_le_pow_iff_left (by omega)).mp hundredfold

theorem two_zpow_le_ten_zpow : (2 : ℚ) ^ (1024 : Int) ≤ 10 ^ (400 : Int) := by
  have roots : (2 : ℚ) ^ (64 : Int) ≤ 10 ^ (25 : Int) := by norm_num
  rw [show (1024 : Int) = 64 * 16 from rfl, show (400 : Int) = 25 * 16 from rfl, zpow_mul, zpow_mul]
  exact zpow_le_zpow_left₀ (by norm_num) (by positivity) roots

theorem ten_zpow_le_two_zpow : (10 : ℚ) ^ (-325 : Int) ≤ 2 ^ (-1075 : Int) := by
  have roots : (10 : ℚ) ^ (-13 : Int) ≤ 2 ^ (-43 : Int) := by norm_num
  rw [show (-325 : Int) = -13 * 25 from rfl, show (-1075 : Int) = -43 * 25 from rfl, zpow_mul, zpow_mul]
  exact zpow_le_zpow_left₀ (by norm_num) (by positivity) roots

/-- A decimal with an exponent this large is beyond all numbers. -/
theorem two_zpow_le_of_exponent {significand : Nat} {exponent : Int} (some : 0 < significand)
    (large : exponent > 400) : (2 : ℚ) ^ (1024 : Int) ≤ significand * 10 ^ exponent := by
  have ten : (0 : ℚ) < 10 ^ exponent := by positivity
  have one : (1 : ℚ) ≤ significand := by exact_mod_cast some
  calc (2 : ℚ) ^ (1024 : Int) ≤ 10 ^ (400 : Int) := two_zpow_le_ten_zpow
    _ ≤ 10 ^ exponent := zpow_le_zpow_right₀ (by norm_num) (by omega)
    _ ≤ significand * 10 ^ exponent := le_mul_of_one_le_left ten.le one

/-- A decimal with an exponent this small, for its digits, is nearer to zero than all numbers. -/
theorem lt_two_zpow_of_exponent {significand : Nat} {exponent : Int}
    (small : exponent + ((significand.log2 + 1) * 31 / 100 + 1 : Nat) < -330) :
    (significand : ℚ) * 10 ^ exponent < 2 ^ (-1075 : Int) := by
  have digits : (significand : ℚ) < 10 ^ ((significand.log2 + 1) * 31 / 100 + 1) := by
    exact_mod_cast Nat.lt_log2_self.trans_le (two_pow_le_ten_pow (significand.log2 + 1))
  generalize (significand.log2 + 1) * 31 / 100 + 1 = n at digits small
  calc (significand : ℚ) * 10 ^ exponent < 10 ^ n * 10 ^ exponent := by gcongr
    _ = 10 ^ (n + exponent) := by rw [zpow_add₀ (by norm_num), zpow_natCast]
    _ ≤ 10 ^ (-325 : Int) := zpow_le_zpow_right₀ (by norm_num) (by omega)
    _ ≤ 2 ^ (-1075 : Int) := ten_zpow_le_two_zpow

/-- The shortcuts for exponents far outside the range change nothing. -/
theorem ofDecimal_eq_nearest (negative : Bool) {significand : Nat} {exponent : Int} (pos : 0 < den)
    (value : (num : ℚ) / den = significand * 10 ^ exponent) :
    ofDecimal negative significand exponent = nearest negative num den := by
  have posq : (0 : ℚ) < den := by exact_mod_cast pos
  by_cases none : significand = 0
  · have nothing : (num : ℚ) = 0 := by
      rw [none, Nat.cast_zero, zero_mul] at value
      exact (div_eq_zero_iff.mp value).resolve_right posq.ne'
    rw [ofDecimal, if_pos none, nearest, if_pos (by exact_mod_cast nothing)]
  have some : 0 < significand := Nat.pos_of_ne_zero none
  have positive : 0 < num := by
    have : (0 : ℚ) < num / den := value ▸ by positivity
    exact_mod_cast (div_pos_iff_of_pos_right posq).mp this
  rw [ofDecimal, if_neg none]
  by_cases large : exponent > 400
  · have beyond := value ▸ two_zpow_le_of_exponent some large
    rw [if_pos large, infinity, nearest, if_neg positive.ne', nearestBits_of_large pos beyond]
  rw [if_neg large]
  by_cases small : exponent + ((significand.log2 + 1) * 31 / 100 + 1 : Nat) < -330
  · have beneath := value ▸ lt_two_zpow_of_exponent small
    rw [if_pos small, nearest, if_neg positive.ne', nearestBits_of_small positive pos beneath]
  rw [if_neg small]
  by_cases up : exponent ≥ 0
  · obtain ⟨n, rfl⟩ := Int.eq_ofNat_of_zero_le up
    rw [if_pos up]
    apply nearest_congr negative Nat.one_pos pos
    rw [zpow_natCast, div_eq_iff posq.ne'] at value
    rw [Nat.mul_one, Nat.pow_eq, Int.toNat_natCast]
    exact_mod_cast value.symm
  · obtain ⟨n, down⟩ := Int.eq_ofNat_of_zero_le (by omega : 0 ≤ -exponent)
    obtain rfl : exponent = -(n : Int) := by omega
    have power : (0 : ℚ) < 10 ^ n := by positivity
    rw [if_neg up]
    apply nearest_congr negative (Nat.pow_pos (by omega)) pos
    rw [zpow_neg, zpow_natCast, ← div_eq_mul_inv, div_eq_div_iff posq.ne' power.ne'] at value
    rw [neg_neg, Int.toNat_natCast]
    exact_mod_cast value.symm

/-- Every decimal is a fraction. -/
theorem exists_fraction (significand : Nat) (exponent : Int) :
    ∃ num den : Nat, 0 < den ∧ (num : ℚ) / den = significand * 10 ^ exponent := by
  by_cases up : 0 ≤ exponent
  · obtain ⟨n, rfl⟩ := Int.eq_ofNat_of_zero_le up
    refine ⟨significand * 10 ^ n, 1, Nat.one_pos, ?_⟩
    rw [zpow_natCast]
    push_cast
    rw [div_one]
  · obtain ⟨n, down⟩ := Int.eq_ofNat_of_zero_le (by omega : 0 ≤ -exponent)
    obtain rfl : exponent = -(n : Int) := by omega
    refine ⟨significand, 10 ^ n, by positivity, ?_⟩
    rw [zpow_neg, zpow_natCast, ← div_eq_mul_inv]
    push_cast
    rfl

/-- Decimals of the same value are rounded alike. -/
theorem ofDecimal_congr (negative : Bool) {significand significand' : Nat}
    {exponent exponent' : Int}
    (same : (significand : ℚ) * 10 ^ exponent = significand' * 10 ^ exponent') :
    ofDecimal negative significand exponent = ofDecimal negative significand' exponent' := by
  obtain ⟨num, den, pos, value⟩ := exists_fraction significand exponent
  rw [ofDecimal_eq_nearest negative pos value, ofDecimal_eq_nearest negative pos (value.trans same)]

end LispBridge.Binary64
