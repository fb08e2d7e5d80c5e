import LispBridge.Number.Decimal
import LispBridge.Proofs.Number.Rounding

/-!
The shortest decimal of a finite number reads back as that number.

* `nearest_fraction`: a finite number is nearest to itself.
* `ofDecimal_shortest`: whichever decimal is chosen, it reads back.
* `bounds_of_ofDecimal`: the decimals that read as a finite number other than zero are neither too
  large nor too small.
-/

namespace LispBridge.Binary64

variable {x : Binary64} {negative : Bool} {m : Nat} {q : Int}

/-! ### Numbers that need no rounding -/

/-- A number is put together again from its fields. -/
theorem withSign_fields (x : Binary64) :
    withSign x.isNegative (x.exponentField * 2 ^ 52 + x.fractionField) = x := by
  have bound := x.bits.toNat_lt
  have sign : x.isNegative = decide (x.bits.toNat / 2 ^ 63 = 1) := rfl
  have bits : x.exponentField * 2 ^ 52 + x.fractionField +
      (if x.isNegative then Nat.pow 2 63 else 0) = x.bits.toNat := by
    rw [sign, exponentField, fractionField]
    simp only [Nat.pow_eq, decide_eq_true_eq]
    split
    · omega
    · omega
  rw [withSign, bits]
  simp

theorem fraction_value (significand : Nat) (exponent : Int) :
    0 < (fraction significand exponent).2 ∧
      ((fraction significand exponent).1 : ℚ) / (fraction significand exponent).2 =
        significand * 2 ^ exponent := by
  rw [fraction]
  by_cases up : exponent ≥ 0
  · obtain ⟨n, rfl⟩ := Int.eq_ofNat_of_zero_le up
    rw [if_pos up]
    refine ⟨Nat.one_pos, ?_⟩
    push_cast [Nat.pow_eq, Int.toNat_natCast]
    rw [div_one, zpow_natCast]
  · obtain ⟨n, down⟩ := Int.eq_ofNat_of_zero_le (by omega : 0 ≤ -exponent)
    obtain rfl : exponent = -(n : Int) := by omega
    rw [if_neg up]
    refine ⟨Nat.two_pow_pos _, ?_⟩
    rw [neg_neg, Int.toNat_natCast, zpow_neg, zpow_natCast, ← div_eq_mul_inv]
    push_cast [Nat.pow_eq]
    rfl

theorem fraction_eq_zero_iff (m : Nat) (q : Int) : (fraction m q).1 = 0 ↔ m = 0 := by
  rw [fraction]
  split
  · simp
  · rfl

/-- The last place of a significand of 53 bits, or of a subnormal one, is its unit. -/
theorem lastPlace_fraction (some : 0 < m) (few : m < 2 ^ 53) (least : -1074 ≤ q)
    (hidden : 2 ^ 52 ≤ m ∨ q = -1074) :
    lastPlace (fraction m q).1 (fraction m q).2 = q := by
  obtain ⟨pos, value⟩ := fraction_value m q
  have someq : (0 : ℚ) < m := by exact_mod_cast some
  have positive : (0 : ℚ) < m * 2 ^ q := by positivity
  have num_pos : 0 < (fraction m q).1 := by
    have posq : (0 : ℚ) < (fraction m q).2 := by exact_mod_cast pos
    rw [← value, div_pos_iff_of_pos_right posq] at positive
    exact_mod_cast positive
  have upper : Int.log 2 ((m : ℚ) * 2 ^ q) < 53 + q := by
    rw [← Int.lt_zpow_iff_log_lt one_lt_two positive, Nat.cast_ofNat, zpow_add₀ two_ne_zero]
    have fewq : (m : ℚ) < 2 ^ (53 : Int) := by exact_mod_cast few
    gcongr
  rw [lastPlace_eq num_pos pos, value]
  rcases hidden with normal | subnormal
  · have lower : 52 + q ≤ Int.log 2 ((m : ℚ) * 2 ^ q) := by
      rw [← two_zpow_le_iff positive, zpow_add₀ two_ne_zero]
      have manyq : (2 : ℚ) ^ (52 : Int) ≤ m := by exact_mod_cast normal
      gcongr
    omega
  · omega

theorem nearestBits_fraction (some : 0 < m) (few : m < 2 ^ 53)
    (least : -1074 ≤ q) (hidden : 2 ^ 52 ≤ m ∨ q = -1074) :
    nearestBits (fraction m q).1 (fraction m q).2 =
      min ((q + 1074).toNat * 2 ^ 52 + m) infinityBits := by
  have place := lastPlace_fraction some few least hidden
  by_cases up : q ≥ 0
  · obtain ⟨n, rfl⟩ := Int.eq_ofNat_of_zero_le up
    have exact : roundHalfEven (m * 2 ^ n) (1 * 2 ^ n) = m := by
      rw [Nat.one_mul, roundHalfEven_mul (Nat.two_pow_pos n)]
    have parts : fraction m n = (m * 2 ^ n, 1) := by
      rw [fraction, if_pos up, Int.toNat_natCast, Nat.pow_eq]
    rw [nearestBits_of_up place, parts, exact]
    rfl
  · obtain ⟨n, down⟩ := Int.eq_ofNat_of_zero_le (by omega : 0 ≤ -q)
    obtain rfl : q = -(n : Int) := by omega
    have exact : roundHalfEven (m * 2 ^ n) (2 ^ n) = m := roundHalfEven_mul (Nat.two_pow_pos n)
    have parts : fraction m (-(n : Int)) = (m, 2 ^ n) := by
      rw [fraction, if_neg up, neg_neg, Int.toNat_natCast, Nat.pow_eq]
    have field : (-(n : Int) + 1074).toNat = 1074 - n := by omega
    rw [nearestBits_of_down place, parts, exact, field]

/-- A finite number is nearest to itself. -/
theorem nearest_fraction (finite : x.view = .finite negative m q) :
    nearest negative (fraction m q).1 (fraction m q).2 = x := by
  have expBound : x.exponentField < 2 ^ 11 := Nat.mod_lt _ (by decide)
  have fracBound : x.fractionField < 2 ^ 52 := Nat.mod_lt _ (by decide)
  suffices bits : (if (fraction m q).1 = 0 then 0
      else nearestBits (fraction m q).1 (fraction m q).2) =
        x.exponentField * 2 ^ 52 + x.fractionField ∧ negative = x.isNegative by
    rw [nearest, bits.1, bits.2, withSign_fields]
  rw [view] at finite
  by_cases special : x.exponentField = 2047
  · rw [if_pos special] at finite
    split at finite
    · cases finite
    · cases finite
  rw [if_neg special] at finite
  by_cases subnormal : x.exponentField = 0
  · rw [if_pos subnormal] at finite
    obtain ⟨rfl, rfl, rfl⟩ := View.finite.inj finite
    refine ⟨?_, rfl⟩
    rw [subnormal, Nat.zero_mul, Nat.zero_add]
    by_cases zero : x.fractionField = 0
    · rw [if_pos ((fraction_eq_zero_iff _ _).mpr zero), zero]
    · rw [if_neg (mt (fraction_eq_zero_iff _ _).mp zero), nearestBits_fraction
        (Nat.pos_of_ne_zero zero) (by omega) (by omega) (.inr rfl)]
      simp only [infinityBits, Nat.pow_eq]
      omega
  · rw [if_neg subnormal] at finite
    obtain ⟨rfl, rfl, rfl⟩ := View.finite.inj finite
    refine ⟨?_, rfl⟩
    have some : Nat.pow 2 52 + x.fractionField ≠ 0 := by
      rw [Nat.pow_eq]
      omega
    rw [if_neg (mt (fraction_eq_zero_iff _ _).mp some), nearestBits_fraction
      (Nat.pos_of_ne_zero some) (by rw [Nat.pow_eq]; omega) (by omega) (.inl (Nat.le_add_right _ _))]
    simp only [infinityBits, Nat.pow_eq]
    omega

/-! ### The shortest decimal -/

theorem ofDecimal_exactDecimal (finite : x.view = .finite negative m q) :
    ofDecimal negative (exactDecimal m q).significand (exactDecimal m q).exponent = x := by
  obtain ⟨pos, value⟩ := fraction_value m q
  rw [ofDecimal_eq_nearest negative pos (value.trans _), nearest_fraction finite]
  rw [exactDecimal]
  by_cases up : q ≥ 0
  · obtain ⟨n, rfl⟩ := Int.eq_ofNat_of_zero_le up
    rw [if_pos up]
    push_cast [Nat.pow_eq, Int.toNat_natCast]
    rw [zpow_natCast, mul_one]
  · obtain ⟨n, down⟩ := Int.eq_ofNat_of_zero_le (by omega : 0 ≤ -q)
    obtain rfl : q = -(n : Int) := by omega
    rw [if_neg up]
    push_cast [Nat.pow_eq, neg_neg, Int.toNat_natCast]
    rw [zpow_neg, zpow_neg, zpow_natCast, zpow_natCast, mul_assoc,
      show (10 : ℚ) = 5 * 2 by norm_num, mul_pow]
    field_simp

theorem stripZeros_go_value (n : Nat) (e : Int) (fuel : Nat) :
    ((Decimal.stripZeros.go n e fuel).significand : ℚ) *
      10 ^ (Decimal.stripZeros.go n e fuel).exponent = n * 10 ^ e := by
  induction fuel generalizing n e with
  | zero => rfl
  | succ fuel ih =>
    rw [Decimal.stripZeros.go]
    split
    · next ends =>
      obtain ⟨k, rfl⟩ := Nat.dvd_of_mod_eq_zero ends.2
      rw [ih, Nat.mul_div_cancel_left k (by omega), zpow_add₀ (by norm_num), zpow_one]
      push_cast
      ring
    · rfl

/-- Zeros at the end of a significand are made up for by the exponent. -/
theorem stripZeros_value (d : Decimal) :
    (d.stripZeros.significand : ℚ) * 10 ^ d.stripZeros.exponent =
      d.significand * 10 ^ d.exponent :=
  stripZeros_go_value d.significand d.exponent d.significand

/-- The shortest decimal of a number reads back as that number. -/
theorem ofDecimal_shortest (finite : x.view = .finite negative m q) :
    ofDecimal negative (x.shortest negative m q).significand (x.shortest negative m q).exponent =
      x := by
  rw [shortest]
  dsimp only
  generalize List.flatMap _ _ = candidates
  rw [ofDecimal_congr negative (stripZeros_value _)]
  cases found : candidates.find? _ with
  | none => exact ofDecimal_exactDecimal finite
  | some d =>
    have reads := List.find?_some found
    exact of_decide_eq_true reads

/-- What a finite number other than zero is read from is neither too large nor too small. -/
theorem bounds_of_ofDecimal {s : Nat} {e : Int} (finite : x.view = .finite negative m q) (some : m ≠ 0)
    (reads : ofDecimal negative s e = x) :
    (10 : ℚ) ^ (-325 : Int) ≤ s * 10 ^ e ∧ (s : ℚ) * 10 ^ e < 10 ^ (400 : Int) := by
  obtain ⟨num, den, pos, value⟩ := exists_fraction s e
  rw [ofDecimal_eq_nearest negative pos value, nearest] at reads
  have notZero : withSign negative 0 ≠ x := by
    rintro rfl
    cases negative with
    | true => exact some (View.finite.inj finite).2.1.symm
    | false => exact some (View.finite.inj finite).2.1.symm
  have notInfinite : withSign negative infinityBits ≠ x := by
    rintro rfl
    cases negative with
    | true => cases finite
    | false => cases finite
  by_cases none : num = 0
  · rw [if_pos none] at reads
    exact absurd reads notZero
  rw [if_neg none] at reads
  rw [← value]
  constructor
  · by_contra small
    have beneath := (not_le.mp small).trans_le ten_zpow_le_two_zpow
    rw [nearestBits_of_small (Nat.pos_of_ne_zero none) pos beneath] at reads
    exact notZero reads
  · by_contra large
    have beyond := two_zpow_le_ten_zpow.trans (not_lt.mp large)
    rw [nearestBits_of_large pos beyond] at reads
    exact notInfinite reads

end LispBridge.Binary64
