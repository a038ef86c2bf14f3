import Mathlib.Data.Int.Log
import Mathlib.Data.Rat.Floor
import Mathlib.Tactic.FieldSimp
import Mathlib.Tactic.Linarith
import Mathlib.Tactic.Positivity
import Mathlib.Tactic.Ring
import RowQuery.Number.Binary64

/-!
The double nearest to a fraction. It is the same for all fractions of one value, and a finite double
is the one nearest to its own value.
-/

namespace RowQuery.Binary64

theorem two_zpow (e : ℤ) : (2 : ℚ) ^ e = 2 ^ e.toNat / 2 ^ (-e).toNat := by
  rcases Int.le_total 0 e with h | h
  · obtain ⟨n, rfl⟩ := Int.eq_ofNat_of_zero_le h
    simp
  · obtain ⟨n, hn⟩ := Int.eq_ofNat_of_zero_le (Int.neg_nonneg_of_nonpos h)
    obtain rfl : e = -n := by omega
    simp

theorem scaled_lt_iff (num c : ℕ) {den : ℕ} (hden : 0 < den) (e : ℤ) :
    num * 2 ^ (-e).toNat < c * (den * 2 ^ e.toNat) ↔ (num : ℚ) / den < c * 2 ^ e := by
  have hden' : (0 : ℚ) < den := by exact_mod_cast hden
  rw [two_zpow, div_lt_iff₀ hden', mul_div_assoc', div_mul_eq_mul_div, lt_div_iff₀ (by positivity),
    ← Nat.cast_lt (α := ℚ)]
  push_cast
  rw [mul_assoc, mul_comm (den : ℚ)]

theorem log_ratio {num den : ℕ} (hnum : 0 < num) (hden : 0 < den) :
    (num.log2 : ℤ) - den.log2 - 1 ≤ Int.log 2 ((num : ℚ) / den) ∧
      Int.log 2 ((num : ℚ) / den) ≤ (num.log2 : ℤ) - den.log2 := by
  have hden' : (0 : ℚ) < den := by exact_mod_cast hden
  have ratio : (0 : ℚ) < num / den := div_pos (by exact_mod_cast hnum) hden'
  have numLow : (2 : ℚ) ^ num.log2 ≤ num := by exact_mod_cast Nat.log2_self_le hnum.ne'
  have denLow : (2 : ℚ) ^ den.log2 ≤ den := by exact_mod_cast Nat.log2_self_le hden.ne'
  have numHigh : (num : ℚ) < 2 ^ (num.log2 + 1) := by exact_mod_cast Nat.lt_log2_self
  have denHigh : (den : ℚ) < 2 ^ (den.log2 + 1) := by exact_mod_cast Nat.lt_log2_self
  constructor
  · rw [← Int.zpow_le_iff_le_log one_lt_two ratio, le_div_iff₀ hden']
    calc (2 : ℚ) ^ ((num.log2 : ℤ) - den.log2 - 1) * den
        ≤ 2 ^ ((num.log2 : ℤ) - den.log2 - 1) * 2 ^ (den.log2 + 1) :=
          mul_le_mul_of_nonneg_left denHigh.le (zpow_nonneg zero_le_two _)
      _ = 2 ^ num.log2 := by
        rw [← zpow_natCast, ← zpow_natCast, ← zpow_add₀ two_ne_zero]
        congr 1
        push_cast
        ring
      _ ≤ num := numLow
  · rw [← Int.lt_add_one_iff, ← Int.lt_zpow_iff_log_lt one_lt_two ratio, div_lt_iff₀ hden']
    calc (num : ℚ) < 2 ^ (num.log2 + 1) := numHigh
      _ = 2 ^ ((num.log2 : ℤ) - den.log2 + 1) * 2 ^ den.log2 := by
        rw [← zpow_natCast, ← zpow_natCast, ← zpow_add₀ two_ne_zero]
        congr 1
        push_cast
        ring
      _ ≤ 2 ^ ((num.log2 : ℤ) - den.log2 + 1) * den :=
        mul_le_mul_of_nonneg_left denLow (zpow_nonneg zero_le_two _)

theorem stepExponent_eq {num den : ℕ} (hnum : 0 < num) (hden : 0 < den) :
    stepExponent num den = max (-1074) (Int.log 2 ((num : ℚ) / den) - 52) := by
  have ratio : (0 : ℚ) < num / den := div_pos (by exact_mod_cast hnum) (by exact_mod_cast hden)
  have below (e : ℤ) :
      (num : ℚ) / den < (2 ^ 52 : ℕ) * 2 ^ e ↔ Int.log 2 ((num : ℚ) / den) < e + 52 := by
    rw [← Int.lt_zpow_iff_log_lt one_lt_two ratio, add_comm e, Nat.cast_ofNat,
      zpow_add₀ two_ne_zero]
    norm_num
  obtain ⟨low, high⟩ := log_ratio hnum hden
  rw [stepExponent]
  simp only [scaled_lt_iff _ _ hden, below]
  split <;> congr 1 <;> omega

theorem roundHalfEven_scale (num den : ℕ) {c : ℕ} (hc : 0 < c) :
    roundHalfEven (num * c) (den * c) = roundHalfEven num den := by
  have order : Ord.compare (2 * (num * c % (den * c))) (den * c)
      = Ord.compare (2 * (num % den)) den := by
    rw [Nat.mul_mod_mul_right, ← Nat.mul_assoc]
    simp only [Nat.compare_eq_ite_lt, Nat.mul_lt_mul_right hc]
  rw [roundHalfEven, order, Nat.mul_div_mul_right _ _ hc]
  rfl

theorem roundHalfEven_mul (n : ℕ) {den : ℕ} (hden : 0 < den) : roundHalfEven (n * den) den = n := by
  have order : Ord.compare (2 * (n * den % den)) den = .lt := by
    rw [Nat.mul_mod_left, Nat.compare_eq_lt]
    omega
  rw [roundHalfEven, order, Nat.mul_div_cancel _ hden]

theorem ofRatio_scale (negative : Bool) (num : ℕ) {den c : ℕ} (hden : 0 < den) (hc : 0 < c) :
    ofRatio negative (num * c) (den * c) = ofRatio negative num den := by
  rcases Nat.eq_zero_or_pos num with rfl | hnum
  · simp [ofRatio]
  · have step : stepExponent (num * c) (den * c) = stepExponent num den := by
      rw [stepExponent_eq hnum hden, stepExponent_eq (Nat.mul_pos hnum hc) (Nat.mul_pos hden hc)]
      push_cast
      rw [mul_div_mul_right _ _ (by exact_mod_cast hc.ne')]
    rw [ofRatio, ofRatio, step, if_neg hnum.ne', if_neg (Nat.mul_pos hnum hc).ne']
    simp only [Nat.mul_right_comm _ c, roundHalfEven_scale _ _ hc]

variable (x : Binary64)

theorem magnitude_lt : x.magnitude < 2 ^ 63 := Nat.mod_lt _ (by decide)

@[simp] theorem magnitude_ofMagnitude (negative : Bool) {m : ℕ} (h : m < 2 ^ 63) :
    (ofMagnitude negative m).magnitude = m := by
  cases negative <;> simp only [magnitude, ofMagnitude] <;> simp <;> omega

theorem ofMagnitude_magnitude : ofMagnitude x.isNegative x.magnitude = x := by
  have bound := x.bits.toNat_lt
  have bits : (if x.isNegative then x.magnitude + 2 ^ 63 else x.magnitude) = x.bits.toNat := by
    simp only [isNegative, magnitude, decide_eq_true_eq]
    split <;> omega
  rw [ofMagnitude, bits, UInt64.ofNat_toNat]

theorem magnitude_eq : (x.exponent + 1074).toNat * 2 ^ 52 + x.significand = x.magnitude := by
  rw [exponent, significand]
  split <;> omega

theorem significand_lt : x.significand < 2 ^ 53 := by
  rw [significand]
  split <;> omega

theorem exponent_cases :
    x.exponent = -1074 ∧ x.significand < 2 ^ 52 ∨ -1074 ≤ x.exponent ∧ 2 ^ 52 ≤ x.significand := by
  rw [exponent, significand]
  split <;> omega

variable {x}

theorem magnitude_of_significand_eq_zero (h : x.significand = 0) : x.magnitude = 0 := by
  rcases x.exponent_cases with ⟨smallest, _⟩ | ⟨_, large⟩
  · rw [← x.magnitude_eq, h, smallest]
    rfl
  · omega

theorem stepExponent_of_value {num den : ℕ} (hden : 0 < den) (hnum : 0 < num)
    (value : (num : ℚ) / den = x.significand * 2 ^ x.exponent) :
    stepExponent num den = x.exponent := by
  have ratio : (0 : ℚ) < x.significand * 2 ^ x.exponent := by
    rw [← value]
    exact div_pos (by exact_mod_cast hnum) (by exact_mod_cast hden)
  have bound (k : ℕ) : (2 : ℚ) ^ (x.exponent + k) = 2 ^ k * 2 ^ x.exponent := by
    rw [add_comm, zpow_add₀ two_ne_zero, zpow_natCast]
  have power : (0 : ℚ) < 2 ^ x.exponent := zpow_pos zero_lt_two _
  rw [stepExponent_eq hnum hden, value]
  rcases x.exponent_cases with ⟨smallest, small⟩ | ⟨least, large⟩
  · have high : Int.log 2 ((x.significand : ℚ) * 2 ^ x.exponent) < x.exponent + (52 : ℕ) := by
      rw [← Int.lt_zpow_iff_log_lt one_lt_two ratio, Nat.cast_ofNat, bound,
        mul_lt_mul_iff_left₀ power]
      exact_mod_cast small
    omega
  · have high : Int.log 2 ((x.significand : ℚ) * 2 ^ x.exponent) < x.exponent + (53 : ℕ) := by
      rw [← Int.lt_zpow_iff_log_lt one_lt_two ratio, Nat.cast_ofNat, bound,
        mul_lt_mul_iff_left₀ power]
      exact_mod_cast x.significand_lt
    have low : x.exponent + (52 : ℕ) ≤ Int.log 2 ((x.significand : ℚ) * 2 ^ x.exponent) := by
      rw [← Int.zpow_le_iff_le_log one_lt_two ratio, Nat.cast_ofNat, bound,
        mul_le_mul_iff_left₀ power]
      exact_mod_cast large
    omega

/-- A finite double is the one nearest to a fraction of its own value. -/
theorem ofRatio_value (finite : x.isFinite) (negative : Bool) {num den : ℕ} (hden : 0 < den)
    (value : num * 2 ^ (-x.exponent).toNat = x.significand * (den * 2 ^ x.exponent.toNat)) :
    ofRatio negative num den = ofMagnitude negative x.magnitude := by
  rcases Nat.eq_zero_or_pos num with rfl | hnum
  · have zero : x.significand = 0 := by
      rw [Nat.zero_mul, eq_comm, Nat.mul_eq_zero] at value
      exact value.resolve_right (Nat.mul_pos hden (Nat.two_pow_pos _)).ne'
    rw [ofRatio, if_pos rfl, magnitude_of_significand_eq_zero zero]
  · have ratio : (num : ℚ) / den = x.significand * 2 ^ x.exponent := by
      have hden' : (den : ℚ) ≠ 0 := by exact_mod_cast hden.ne'
      rw [two_zpow, div_eq_iff hden', mul_div_assoc', div_mul_eq_mul_div,
        eq_div_iff (by positivity)]
      exact_mod_cast value.trans (by ring)
    have below : x.magnitude ≤ infinityMagnitude := by
      rw [isFinite, decide_eq_true_eq] at finite
      exact finite.le
    rw [ofRatio, if_neg hnum.ne', stepExponent_of_value hden hnum ratio]
    simp only [value]
    rw [roundHalfEven_mul _ (Nat.mul_pos hden (Nat.two_pow_pos _)), x.magnitude_eq,
      Nat.min_eq_right below]

end RowQuery.Binary64
