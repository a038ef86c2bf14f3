import RowQuery.Proofs.Number.Nearest

/-!
Rounding keeps the order of what is rounded. Integers below `2 ^ 53` are doubles themselves, so that
rounding tells them from every other integer.
-/

namespace RowQuery.Binary64

theorem roundHalfEven_eq (num den : ℕ) : roundHalfEven num den = num / den +
    if den < 2 * (num % den) then 1 else if den = 2 * (num % den) then num / den % 2 else 0 := by
  rw [roundHalfEven]
  cases h : Ord.compare (2 * (num % den)) den with
  | lt =>
    have less := Nat.compare_eq_lt.1 h
    rw [if_neg (by omega), if_neg (by omega)]
    rfl
  | eq =>
    have same := Nat.compare_eq_eq.1 h
    rw [if_neg (by omega), if_pos same.symm]
  | gt => rw [if_pos (Nat.compare_eq_gt.1 h)]

theorem roundHalfEven_mono {num num' : ℕ} (h : num ≤ num') (den : ℕ) :
    roundHalfEven num den ≤ roundHalfEven num' den := by
  rw [roundHalfEven_eq, roundHalfEven_eq]
  rcases (Nat.div_le_div_right (c := den) h).eq_or_lt with same | less
  · have rest : num % den ≤ num' % den := by
      have split := Nat.div_add_mod num den
      have split' := Nat.div_add_mod num' den
      rw [same] at split
      omega
    rw [same]
    grind
  · grind

theorem roundHalfEven_le {num den c : ℕ} (hden : 0 < den) (h : num ≤ c * den) :
    roundHalfEven num den ≤ c :=
  (roundHalfEven_mono h den).trans_eq (roundHalfEven_mul c hden)

theorem le_roundHalfEven {num den c : ℕ} (hden : 0 < den) (h : c * den ≤ num) :
    c ≤ roundHalfEven num den :=
  (roundHalfEven_mul c hden).symm.trans_le (roundHalfEven_mono h den)

theorem roundHalfEven_one (n : ℕ) : roundHalfEven n 1 = n := by
  have exact := roundHalfEven_mul n one_pos
  rwa [Nat.mul_one] at exact

theorem roundHalfEven_le_roundHalfEven {num den num' den' : ℕ} (hden : 0 < den) (hden' : 0 < den')
    (h : num * den' ≤ num' * den) : roundHalfEven num den ≤ roundHalfEven num' den' := by
  calc roundHalfEven num den = roundHalfEven (num * den') (den * den') :=
    (roundHalfEven_scale num den hden').symm
    _ ≤ roundHalfEven (num' * den) (den * den') := roundHalfEven_mono h _
    _ = roundHalfEven (num' * den) (den' * den) := by rw [Nat.mul_comm den]
    _ = roundHalfEven num' den' := roundHalfEven_scale num' den' hden

section
variable {num den num' den' : ℕ} (hnum : 0 < num) (hden : 0 < den)
include hnum hden

theorem scaled_lt :
    num * 2 ^ (-stepExponent num den).toNat
    < 2 ^ 53 * (den * 2 ^ (stepExponent num den).toNat) := by
  have ratio : (0 : ℚ) < num / den := div_pos (by exact_mod_cast hnum) (by exact_mod_cast hden)
  have step := stepExponent_eq hnum hden
  rw [scaled_lt_iff _ _ hden, Nat.cast_pow, Nat.cast_ofNat, ← zpow_natCast, ← zpow_add₀ two_ne_zero]
  rw [← Nat.cast_ofNat (R := ℚ), Int.lt_zpow_iff_log_lt one_lt_two ratio]
  omega

theorem le_scaled (large : -1074 < stepExponent num den) :
    2 ^ 52 * (den * 2 ^ (stepExponent num den).toNat)
      ≤ num * 2 ^ (-stepExponent num den).toNat := by
  have ratio : (0 : ℚ) < num / den := div_pos (by exact_mod_cast hnum) (by exact_mod_cast hden)
  have step := stepExponent_eq hnum hden
  rw [← Nat.not_lt, scaled_lt_iff _ _ hden, Nat.cast_pow, Nat.cast_ofNat, ← zpow_natCast,
    ← zpow_add₀ two_ne_zero]
  rw [← Nat.cast_ofNat (R := ℚ), Int.lt_zpow_iff_log_lt one_lt_two ratio]
  omega

end

/-- The doubles from zero up to the one nearest to a fraction, as if there were no largest one. -/
def stepsTo (num den : ℕ) : ℕ :=
  let e := stepExponent num den
  (e + 1074).toNat * 2 ^ 52 + roundHalfEven (num * 2 ^ (-e).toNat) (den * 2 ^ e.toNat)

theorem ofRatio_eq (negative : Bool) {num : ℕ} (hnum : 0 < num) (den : ℕ) :
    ofRatio negative num den = ofMagnitude negative (min infinityMagnitude (stepsTo num den)) := by
  rw [ofRatio, if_neg hnum.ne']
  rfl

theorem magnitude_ofRatio (negative : Bool) {num : ℕ} (hnum : 0 < num) (den : ℕ) :
    (ofRatio negative num den).magnitude = min infinityMagnitude (stepsTo num den) := by
  rw [ofRatio_eq negative hnum, magnitude_ofMagnitude]
  exact (Nat.min_le_left _ _).trans_lt (by decide)

section
variable {num den num' den' : ℕ} (hnum : 0 < num) (hden : 0 < den) (hden' : 0 < den')
include hnum hden hden'

theorem stepExponent_mono (h : num * den' ≤ num' * den) :
    stepExponent num den ≤ stepExponent num' den' := by
  have hnum' : 0 < num' := Nat.pos_of_mul_pos_right ((Nat.mul_pos hnum hden').trans_le h)
  have den_pos : (0 : ℚ) < den := by exact_mod_cast hden
  have den_pos' : (0 : ℚ) < den' := by exact_mod_cast hden'
  have ratio : (0 : ℚ) < num / den := div_pos (by exact_mod_cast hnum) den_pos
  have le : (num : ℚ) / den ≤ num' / den' := by
    rw [div_le_div_iff₀ den_pos den_pos']
    exact_mod_cast h
  rw [stepExponent_eq hnum hden, stepExponent_eq hnum' hden']
  have logs := Int.log_mono_right (b := 2) ratio le
  omega

theorem stepsTo_mono (h : num * den' ≤ num' * den) : stepsTo num den ≤ stepsTo num' den' := by
  have hnum' : 0 < num' := Nat.pos_of_mul_pos_right ((Nat.mul_pos hnum hden').trans_le h)
  have low : -1074 ≤ stepExponent num den := by
    rw [stepExponent_eq hnum hden]; exact le_max_left _ _
  rw [stepsTo, stepsTo]
  rcases (stepExponent_mono hnum hden hden' h).eq_or_lt with same | less
  · rw [← same]
    refine Nat.add_le_add_left (roundHalfEven_le_roundHalfEven (by positivity) (by positivity) ?_) _
    calc num * 2 ^ (-stepExponent num den).toNat * (den' * 2 ^ (stepExponent num den).toNat)
        = num * den' * (2 ^ (-stepExponent num den).toNat * 2 ^ (stepExponent num den).toNat) := by
          ring
      _ ≤ num' * den * (2 ^ (-stepExponent num den).toNat * 2 ^ (stepExponent num den).toNat) :=
        Nat.mul_le_mul_right _ h
      _ = num' * 2 ^ (-stepExponent num den).toNat * (den * 2 ^ (stepExponent num den).toNat) := by
        ring
  · have most := roundHalfEven_le (by positivity) (scaled_lt hnum hden).le
    have least := le_roundHalfEven (by positivity) (le_scaled hnum' hden' (by omega))
    omega

end

/-- Rounding a fraction keeps the order of fractions. -/
theorem magnitude_ofRatio_mono {num den num' den' : ℕ} (hden : 0 < den) (hden' : 0 < den')
    (h : num * den' ≤ num' * den) :
    (ofRatio false num den).magnitude ≤ (ofRatio false num' den').magnitude := by
  rcases Nat.eq_zero_or_pos num with rfl | hnum
  · exact Nat.zero_le _
  · have hnum' : 0 < num' := Nat.pos_of_mul_pos_right ((Nat.mul_pos hnum hden').trans_le h)
    rw [magnitude_ofRatio false hnum, magnitude_ofRatio false hnum']
    exact min_le_min_left _ (stepsTo_mono hnum hden hden' h)

theorem magnitude_ofRatio_le (negative : Bool) (num den : ℕ) :
    (ofRatio negative num den).magnitude ≤ infinityMagnitude := by
  rcases Nat.eq_zero_or_pos num with rfl | hnum
  · rw [ofRatio, if_pos rfl, magnitude_ofMagnitude negative (by decide)]
    exact Nat.zero_le _
  · rw [magnitude_ofRatio negative hnum]
    exact Nat.min_le_left _ _

section
variable {n m : ℕ}

theorem stepExponent_small (pos : 0 < n) (small : n < 2 ^ 53) : stepExponent n 1 ≤ 0 := by
  have value : (0 : ℚ) < (n : ℚ) / (1 : ℕ) := by positivity
  have log : Int.log 2 ((n : ℚ) / (1 : ℕ)) < 53 := by
    rw [← Int.lt_zpow_iff_log_lt one_lt_two value, Nat.cast_one, div_one]
    exact_mod_cast small
  rw [stepExponent_eq pos one_pos]
  omega

theorem stepExponent_large (pos : 0 < n) : -1074 < stepExponent n 1 := by
  have value : (0 : ℚ) < (n : ℚ) / (1 : ℕ) := by positivity
  have log : 0 ≤ Int.log 2 ((n : ℚ) / (1 : ℕ)) := by
    rw [← Int.zpow_le_iff_le_log one_lt_two value, Nat.cast_one, div_one, zpow_zero]
    exact_mod_cast pos
  rw [stepExponent_eq pos one_pos]
  omega

theorem stepsTo_small (pos : 0 < n) (small : n < 2 ^ 53) :
    stepsTo n 1 = (stepExponent n 1 + 1074).toNat * 2 ^ 52 + n * 2 ^ (-stepExponent n 1).toNat := by
  have whole : (stepExponent n 1).toNat = 0 := Int.toNat_eq_zero.2 (stepExponent_small pos small)
  rw [stepsTo, whole, Nat.pow_zero, Nat.mul_one, roundHalfEven_one]

theorem stepsTo_lt (pos : 0 < n) (small : n < 2 ^ 53) (h : n < m) : stepsTo n 1 < stepsTo m 1 := by
  have pos' : 0 < m := pos.trans h
  have bound := scaled_lt pos one_pos
  rw [Int.toNat_eq_zero.2 (stepExponent_small pos small), Nat.pow_zero, Nat.mul_one] at bound
  have le : n * 1 ≤ m * 1 := by omega
  rw [stepsTo_small pos small, stepsTo]
  rcases (stepExponent_mono pos one_pos one_pos le).eq_or_lt with same | less
  · rw [← same, Int.toNat_eq_zero.2 (stepExponent_small pos small), Nat.pow_zero, Nat.mul_one,
      roundHalfEven_one]
    have steps := Nat.mul_lt_mul_of_pos_right h (Nat.two_pow_pos (-stepExponent n 1).toNat)
    omega
  · have least := le_roundHalfEven (by positivity)
      (le_scaled pos' one_pos (stepExponent_large pos'))
    have low := stepExponent_large pos
    omega

theorem magnitude_ofRatio_lt (small : n < 2 ^ 53) (h : n < m) :
    (ofRatio false n 1).magnitude < (ofRatio false m 1).magnitude := by
  have pos' : 0 < m := n.zero_le.trans_lt h
  rw [magnitude_ofRatio false pos']
  rcases Nat.eq_zero_or_pos n with rfl | pos
  · have least := le_roundHalfEven (by positivity)
      (le_scaled pos' one_pos (stepExponent_large pos'))
    rw [ofRatio, if_pos rfl, magnitude_ofMagnitude false (by decide), stepsTo, infinityMagnitude]
    omega
  · have bound := scaled_lt pos one_pos
    rw [Int.toNat_eq_zero.2 (stepExponent_small pos small), Nat.pow_zero, Nat.mul_one] at bound
    have finite : stepsTo n 1 < infinityMagnitude := by
      have step := stepExponent_small pos small
      rw [stepsTo_small pos small, infinityMagnitude]
      omega
    rw [magnitude_ofRatio false pos, Nat.min_eq_right finite.le]
    exact lt_min finite (stepsTo_lt pos small h)

end

theorem isNegative_ofMagnitude (negative : Bool) {m : ℕ} (h : m < 2 ^ 63) :
    (ofMagnitude negative m).isNegative = negative := by
  cases negative <;> simp only [isNegative, ofMagnitude] <;> simp <;> omega

theorem key_ofMagnitude (negative : Bool) {m : ℕ} (h : m ≤ infinityMagnitude) :
    (ofMagnitude negative m).key = if negative then -(m : ℤ) else m := by
  have bound : m < 2 ^ 63 := h.trans_lt (by decide)
  have number : (ofMagnitude negative m).isNaN = false := by
    rw [isNaN, magnitude_ofMagnitude negative bound]
    exact decide_eq_false h.not_gt
  rw [key, number, if_neg Bool.false_ne_true, isNegative_ofMagnitude negative bound,
    magnitude_ofMagnitude negative bound]

theorem key_ofInt (i : ℤ) : (ofInt i).key =
    if i < 0 then -((ofRatio false i.natAbs 1).magnitude : ℤ)
      else (ofRatio false i.natAbs 1).magnitude := by
  rw [ofInt, Decimal.ofRatio_negative, key_ofMagnitude _ (magnitude_ofRatio_le false _ _)]
  simp only [decide_eq_true_eq]

theorem key_ofInt_mono {i j : ℤ} (h : i ≤ j) : (ofInt i).key ≤ (ofInt j).key := by
  rw [key_ofInt, key_ofInt]
  split
  · split
    · have larger : (ofRatio false j.natAbs 1).magnitude ≤ (ofRatio false i.natAbs 1).magnitude :=
        magnitude_ofRatio_mono one_pos one_pos (by omega)
      omega
    · omega
  · have larger : (ofRatio false i.natAbs 1).magnitude ≤ (ofRatio false j.natAbs 1).magnitude :=
      magnitude_ofRatio_mono one_pos one_pos (by omega)
    rw [if_neg (by omega)]
    omega

/-- Rounding integers keeps them apart where one of them is small. -/
theorem key_ofInt_lt {i j : ℤ} (small : i.natAbs < 2 ^ 53 ∨ j.natAbs < 2 ^ 53) (h : i < j) :
    (ofInt i).key < (ofInt j).key := by
  rw [key_ofInt, key_ofInt]
  split
  · split
    · have larger := magnitude_ofRatio_lt (n := j.natAbs) (m := i.natAbs) (by omega) (by omega)
      omega
    · have positive := magnitude_ofRatio_lt (n := 0) (m := i.natAbs) (by decide) (by omega)
      omega
  · have larger := magnitude_ofRatio_lt (n := i.natAbs) (m := j.natAbs) (by omega) (by omega)
    rw [if_neg (by omega)]
    omega

end RowQuery.Binary64
