import RowQuery.Json.Reader
import RowQuery.Proofs.Number.Digits
import RowQuery.Proofs.Number.Rounding

/-!
The double that is read for a decimal. It is the nearest one where the decimal has few digits and a
small exponent, since the number of its digits and the power of ten are then doubles, and only one
operation rounds.
-/

namespace RowQuery.Binary64

theorem denominator_pos (x : Binary64) : 0 < x.denominator := Nat.two_pow_pos _

theorem numerator_of_isZero {x : Binary64} (zero : x.isZero = true) : x.numerator = 0 := by
  have none : x.magnitude = 0 := eq_of_beq zero
  rw [numerator, significand, if_pos (by omega), none, Nat.zero_mul]

theorem numerator_ofRatio {n : ℕ} (pos : 0 < n) (small : n < 2 ^ 53) :
    (ofRatio false n 1).numerator = n * (ofRatio false n 1).denominator := by
  have low := stepExponent_large pos
  have high := stepExponent_small pos small
  have upper := scaled_lt pos one_pos
  have lower := le_scaled pos one_pos low
  have steps := stepsTo_small pos small
  have magnitude := magnitude_ofRatio false pos 1
  rw [Int.toNat_eq_zero.2 high, Nat.pow_zero, Nat.mul_one, Nat.mul_one] at upper lower
  rw [infinityMagnitude] at magnitude
  -- the significand is the number, with as many zeros as there is room for
  have exponent : (ofRatio false n 1).exponent = stepExponent n 1 := by
    rw [Binary64.exponent]
    split <;> omega
  have significand : (ofRatio false n 1).significand = n * 2 ^ (-stepExponent n 1).toNat := by
    rw [Binary64.significand]
    split <;> omega
  rw [numerator, denominator, exponent, significand, Int.toNat_eq_zero.2 high, Nat.pow_zero,
    Nat.mul_one]

/-- The text that is written for a double is read as the double. -/
def ReadsBack (x : Binary64) : Prop := Json.Reader.number? (Json.float x).text = some (.float x, [])

end RowQuery.Binary64

namespace RowQuery.Decimal

/-- Few digits, with the zeros that are written behind them, and an exponent that is not far below
zero. -/
def Short (d : Decimal) : Prop := d.digits * 10 ^ (d.exponent.toNat + 1) < 2 ^ 53 ∧ -22 ≤ d.exponent

instance (d : Decimal) : Decidable d.Short := inferInstanceAs (Decidable (_ ∧ _))

end RowQuery.Decimal

namespace RowQuery.Json.Reader

open Binary64 (ofRatio)
open Numeral (digitsValue)

theorem le_ofDigitChars (n : ℕ) (ds : List Char) : n ≤ Nat.ofDigitChars 10 ds n := by
  rw [Nat.ofDigitChars_eq_ofDigitChars_zero]
  exact (Nat.le_mul_of_pos_left n (Nat.pow_pos (by decide))).trans (Nat.le_add_right _ _)

theorem takeDigits_of_lt {n : ℕ} {ds : List Char} (small : Nat.ofDigitChars 10 ds n < 2 ^ 64) :
    takeDigits n ds = (Nat.ofDigitChars 10 ds n, []) := by
  induction ds generalizing n with
  | nil => rfl
  | cons d ds ih =>
    have next : 10 * n + Numeral.digitValue d ≤ Nat.ofDigitChars 10 (d :: ds) n :=
      le_ofDigitChars _ ds
    rw [takeDigits, if_pos (next.trans_lt small)]
    exact ih small

theorem ofParts_eq {whole fraction : List Char} (e : ℤ)
    (small : digitsValue (whole ++ fraction) < 2 ^ 64) :
    ofParts whole fraction e = ⟨digitsValue (whole ++ fraction), e - fraction.length⟩ := by
  rw [digitsValue_eq, Nat.ofDigitChars_append] at small
  have first : Nat.ofDigitChars 10 whole 0 < 2 ^ 64 := (le_ofDigitChars _ fraction).trans_lt small
  rw [ofParts, takeDigits_of_lt first]
  simp only [takeDigits_of_lt small]
  rw [digitsValue_eq, Nat.ofDigitChars_append]
  simp

theorem numerator_powerOfTen {k : ℕ} (small : k ≤ 22) :
    (powerOfTen k).numerator = 10 ^ k * (powerOfTen k).denominator := by
  have all : ∀ k ≤ 22, (powerOfTen k).numerator = 10 ^ k * (powerOfTen k).denominator := by
    decide +kernel
  exact all k small

theorem times_powerOfTen {n k : ℕ} (pos : 0 < n) (small : n < 2 ^ 53) (near : k ≤ 22) :
    (ofRatio false n 1).times (powerOfTen k) = ofRatio false (n * 10 ^ k) 1 := by
  have scaled := Binary64.ofRatio_scale false (n * 10 ^ k) one_pos
    (Nat.mul_pos (ofRatio false n 1).denominator_pos (powerOfTen k).denominator_pos)
  rw [Binary64.times, Binary64.numerator_ofRatio pos small, numerator_powerOfTen near, ← scaled]
  congr 1 <;> ring

theorem dividedBy_powerOfTen {n k : ℕ} (pos : 0 < n) (small : n < 2 ^ 53) (near : k ≤ 22) :
    (ofRatio false n 1).dividedBy (powerOfTen k) = ofRatio false n (10 ^ k) := by
  have scaled := Binary64.ofRatio_scale false n (Nat.pow_pos (n := k) (by decide : 0 < 10))
    (Nat.mul_pos (ofRatio false n 1).denominator_pos (powerOfTen k).denominator_pos)
  rw [Binary64.dividedBy, Binary64.numerator_ofRatio pos small, numerator_powerOfTen near, ← scaled]
  congr 1 <;> ring

theorem scale?_of_short {n : ℕ} {e : ℤ} (pos : 0 < n) (small : n < 2 ^ 53) (low : -22 ≤ e)
    (high : e ≤ 22) : scale? (ofRatio false n 1) e = some (Decimal.nearest false ⟨n, e⟩) := by
  have nonzero : (ofRatio false n 1).isZero = false := by
    refine Bool.eq_false_iff.2 fun zero => ?_
    have none := Binary64.numerator_of_isZero zero
    rw [Binary64.numerator_ofRatio pos small] at none
    exact (Nat.mul_pos pos (Binary64.denominator_pos _)).ne' none
  rw [scale?, nonzero, if_neg Bool.false_ne_true, if_neg (by omega),
    Decimal.nearest_eq_ofRatio false pos (by omega) (by omega)]
  rcases lt_or_ge e 0 with part | whole
  · obtain ⟨k, hk⟩ := Int.eq_ofNat_of_zero_le (Int.neg_nonneg_of_nonpos part.le)
    rw [if_neg (Int.not_le.2 part), if_pos (by omega), hk, Int.toNat_natCast,
      dividedBy_powerOfTen pos small (by omega)]
    simp [Int.toNat_of_nonpos part.le]
  · obtain ⟨k, rfl⟩ := Int.eq_ofNat_of_zero_le whole
    have finite : (ofRatio false (n * 10 ^ k) 1).isFinite = true := by
      have power : 10 ^ k ≤ 10 ^ 22 := Nat.pow_le_pow_right (by decide) (by omega)
      have bound := Binary64.magnitude_ofRatio_mono one_pos one_pos
        (Nat.mul_le_mul_right 1 (Nat.mul_le_mul small.le power))
      rw [Binary64.isFinite, decide_eq_true_eq]
      exact bound.trans_lt (by decide +kernel)
    rw [if_pos whole, Int.toNat_natCast, times_powerOfTen pos small (by omega)]
    simp [finite]

theorem ofDecimal?_of_short (negative : Bool) {n : ℕ} {e : ℤ} (small : n < 2 ^ 53) (low : -22 ≤ e)
    (high : e ≤ 22) :
    ofDecimal? negative ⟨n, e⟩ = some (.float (Decimal.nearest negative ⟨n, e⟩)) := by
  rw [ofDecimal?, Decimal.nearest_negative negative]
  rcases Nat.eq_zero_or_pos n with rfl | pos
  · rw [Decimal.nearest_zero, scale?, if_pos (by rfl)]
    rfl
  · rw [scale?_of_short pos small low high]
    rfl

end RowQuery.Json.Reader
