import RowQuery.Number.Decimal
import RowQuery.Proofs.Number.Ratio

/-!
The decimal that is written for a finite double reads back as the double.
-/

namespace RowQuery.Decimal

open Binary64 (ofMagnitude ofRatio infinityMagnitude)

theorem ofRatio_negative (negative : Bool) (num den : ℕ) :
    ofRatio negative num den = ofMagnitude negative (ofRatio false num den).magnitude := by
  rw [ofRatio, ofRatio]
  split
  · rw [Binary64.magnitude_ofMagnitude false (by decide)]
  · rw [Binary64.magnitude_ofMagnitude false]
    exact Nat.lt_of_le_of_lt (Nat.min_le_left _ _) (by decide)

theorem nearest_negative (negative : Bool) (d : Decimal) :
    nearest negative d = ofMagnitude negative (nearest false d).magnitude := by
  rw [nearest, nearest]
  split
  · rw [Binary64.magnitude_ofMagnitude false (by decide)]
  · split
    · rw [Binary64.infinity, Binary64.infinity, Binary64.magnitude_ofMagnitude false (by decide)]
    · exact ofRatio_negative negative _ _

@[simp] theorem nearest_zero (negative : Bool) (exponent : ℤ) :
    nearest negative ⟨0, exponent⟩ = ofMagnitude negative 0 := by
  simp [nearest]

theorem nearest_eq_ofRatio (negative : Bool) {digits : ℕ} {exponent : ℤ} (pos : 0 < digits)
    (low : -401 - (digits.log2 : ℤ) ≤ exponent) (high : exponent ≤ 400) :
    nearest negative ⟨digits, exponent⟩ = ofRatio negative (digits * 10 ^ exponent.toNat)
      (10 ^ (-exponent).toNat) := by
  rw [nearest, if_neg, if_neg]
  · exact Int.not_lt.2 high
  · rintro (zero | small)
    · exact pos.ne' zero
    · simp only at small
      omega

theorem nearest_shift (negative : Bool) (digits k : ℕ) (high : k ≤ 400) :
    nearest negative ⟨digits * 10 ^ (k + 1), -1⟩ = nearest negative ⟨digits, k⟩ := by
  rcases Nat.eq_zero_or_pos digits with rfl | pos
  · simp
  · rw [nearest_eq_ofRatio negative (Nat.mul_pos pos (Nat.pow_pos (by decide)))
      (by omega) (by omega),
      nearest_eq_ofRatio negative pos (by omega) (by omega)]
    have scaled : ofRatio negative (digits * 10 ^ k * 10) (1 * 10)
        = ofRatio negative (digits * 10 ^ k) 1 :=
      Binary64.ofRatio_scale negative _ (by decide) (by decide)
    simpa [Nat.pow_succ, ← Nat.mul_assoc] using scaled

variable {x : Binary64}

theorem nearest_exact (finite : x.isFinite) (pos : 0 < x.significand) :
    nearest false (exact x) = ofMagnitude false x.magnitude := by
  rw [exact]
  split
  · next negative =>
    obtain ⟨k, hk⟩ := Int.eq_ofNat_of_zero_le (Int.neg_nonneg_of_nonpos negative.le)
    have exponent : x.exponent = -k := by omega
    have digits : 0 < x.significand * 5 ^ k := Nat.mul_pos pos (Nat.pow_pos (by decide))
    have large : k ≤ (x.significand * 5 ^ k).log2 := by
      rw [Nat.le_log2 digits.ne']
      exact (Nat.pow_le_pow_left (by decide) k).trans (Nat.le_mul_of_pos_left _ pos)
    rw [exponent, Int.neg_neg, Int.toNat_natCast,
      nearest_eq_ofRatio false digits (by omega) (by omega)]
    apply Binary64.ofRatio_value finite false (Nat.pow_pos (by decide))
    rw [exponent]
    simp [Nat.mul_assoc, ← Nat.mul_pow]
  · next positive =>
    obtain ⟨k, hk⟩ := Int.eq_ofNat_of_zero_le (Int.not_lt.1 positive)
    rw [hk, Int.toNat_natCast,
      nearest_eq_ofRatio false (Nat.mul_pos pos (Nat.two_pow_pos _)) (by omega) (by omega)]
    apply Binary64.ofRatio_value finite false (Nat.pow_pos (by decide))
    rw [hk]
    simp

theorem nearest_shortest (tie : Tie) (negative : Bool) (finite : x.isFinite) :
    nearest negative (shortest tie x) = ofMagnitude negative x.magnitude := by
  rw [nearest_negative]
  congr 1
  rw [shortest]
  split
  · next zero =>
    have significand : x.significand = 0 :=
      (Nat.mul_eq_zero.1 zero).resolve_right (Nat.two_pow_pos _).ne'
    rw [nearest_zero, Binary64.magnitude_of_significand_eq_zero significand]
    rfl
  · next nonzero =>
    have pos : 0 < x.significand := Nat.pos_of_ne_zero fun h => nonzero (by rw [h, Nat.zero_mul])
    cases hf : (List.range 17).findSome? fun (n : Nat) => List.find? _ _ with
    | none =>
      rw [Option.getD_none, nearest_exact finite pos,
        Binary64.magnitude_ofMagnitude false x.magnitude_lt]
    | some d =>
      obtain ⟨n, _, found⟩ := List.exists_of_findSome?_eq_some hf
      have reads := List.find?_some found
      exact eq_of_beq reads

end RowQuery.Decimal
