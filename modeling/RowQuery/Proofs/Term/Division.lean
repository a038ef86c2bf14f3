import RowQuery.Proofs.Term.Integers

/-!
Quotients and remainders of integers. Division truncates, and the remainder is what it leaves over;
both are refused where the divisor is zero and where the quotient is out of range, which one pair of
operands brings about.
-/

namespace RowQuery

variable {a b : ℤ}

theorem two_mul_natAbs_tdiv_le (large : 2 ≤ b.natAbs) : 2 * (a.tdiv b).natAbs ≤ a.natAbs := by
  rw [Int.natAbs_tdiv]
  calc
    2 * (a.natAbs / b.natAbs) ≤ b.natAbs * (a.natAbs / b.natAbs) := Nat.mul_le_mul_right _ large
    _ ≤ a.natAbs := Nat.mul_div_le a.natAbs b.natAbs

theorem natAbs_tmod_lt (nonzero : b ≠ 0) : (a.tmod b).natAbs < b.natAbs := by
  rw [Int.natAbs_tmod]
  exact Nat.mod_lt _ (Int.natAbs_pos.2 nonzero)

theorem tmod_eq_zero_or_sign (a b : ℤ) : a.tmod b = 0 ∨ (a.tmod b).sign = a.sign := by
  rw [Int.sign_tmod]
  split
  · next divides => exact .inl (Int.tmod_eq_zero_of_dvd divides)
  · exact .inr rfl

theorem isInt64_tmod (divisor : IsInt64 b) (nonzero : b ≠ 0) : IsInt64 (a.tmod b) := by
  have less := natAbs_tmod_lt (a := a) nonzero
  rw [IsInt64] at divisor ⊢
  omega

theorem not_isInt64_tdiv_iff (dividend : IsInt64 a) :
    ¬ IsInt64 (a.tdiv b) ↔ a = -2 ^ 63 ∧ b = -1 := by
  rw [IsInt64] at dividend ⊢
  -- the magnitude stays by a unit, and minus one turns the least number into one that is too large;
  -- else it is halved
  rcases Decidable.em (b = -1) with rfl | other
  · rw [Int.tdiv_neg, Int.tdiv_one]
    omega
  · rcases Nat.lt_or_ge b.natAbs 2 with small | large
    · have small : b = 0 ∨ b = 1 := by omega
      rcases small with rfl | rfl
      · rw [Int.tdiv_zero]
        omega
      · rw [Int.tdiv_one]
        omega
    · have half := two_mul_natAbs_tdiv_le (a := a) large
      omega

namespace BinaryOp

variable {a b : Int64}

theorem toInt_ne_zero (nonzero : b ≠ 0) : b.toInt ≠ 0 :=
  fun zero => nonzero (Int64.toInt_inj.1 zero)

theorem apply_zero (a : Int64) : div.apply (.int a) (.int 0) = .error (.type .divisionByZero) ∧
    mod.apply (.int a) (.int 0) = .error (.type .divisionByZero) :=
  ⟨rfl, rfl⟩

theorem div_apply (nonzero : b ≠ 0) :
    div.apply (.int a) (.int b) = inRange (a.toInt.tdiv b.toInt) (.overflow .div) :=
  if_neg (toInt_ne_zero nonzero)

theorem mod_apply (nonzero : b ≠ 0) : mod.apply (.int a) (.int b) =
    if IsInt64 (a.toInt.tdiv b.toInt) then inRange (a.toInt.tmod b.toInt) (.overflow .mod)
    else .error (.type (.overflow .mod)) := by
  have divided : mod.apply (.int a) (.int b) =
      if (int64? (a.toInt.tdiv b.toInt)).isNone then .error (.type (.overflow .mod))
      else inRange (a.toInt.tmod b.toInt) (.overflow .mod) :=
    if_neg (toInt_ne_zero nonzero)
  rw [divided]
  simp only [Option.isNone_iff_eq_none, int64?_eq_none, ite_not]

theorem apply_outside (nonzero : b ≠ 0) (outside : ¬ IsInt64 (a.toInt.tdiv b.toInt)) :
    div.apply (.int a) (.int b) = .error (.type (.overflow .div)) ∧
    mod.apply (.int a) (.int b) = .error (.type (.overflow .mod)) := by
  rw [div_apply nonzero, mod_apply nonzero, inRange_outside outside, if_neg outside]
  exact ⟨rfl, rfl⟩

theorem apply_inside (nonzero : b ≠ 0) (inside : IsInt64 (a.toInt.tdiv b.toInt)) : ∃ q m : Int64,
    div.apply (.int a) (.int b) = .ok (.int q) ∧ mod.apply (.int a) (.int b) = .ok (.int m) ∧
    q.toInt = a.toInt.tdiv b.toInt ∧ m.toInt = a.toInt.tmod b.toInt := by
  obtain ⟨q, quotient⟩ := isInt64_iff.1 inside
  obtain ⟨m, remainder⟩ :=
    isInt64_iff.1 (isInt64_tmod (a := a.toInt) (isInt64_toInt b) (toInt_ne_zero nonzero))
  refine ⟨q, m, ?_, ?_, quotient, remainder⟩
  · rw [div_apply nonzero, ← quotient, inRange_toInt]
  · rw [mod_apply nonzero, if_pos inside, ← remainder, inRange_toInt]

end BinaryOp

namespace Term

/-- Where two terms have integers on a row, their quotient and their remainder are the exact ones of
division that truncates, and fail only together: where the divisor is zero, and where the quotient
is out of range, as that of the least integer and minus one is. The remainder is less than the
divisor in magnitude and has the sign of the dividend, if it has one, and it is what the quotient
leaves of the dividend. -/
theorem compile_division {l r : Term} {f g : Expression} (left : compile l = .ok f)
    (right : compile r = .ok g) :
    ∃ quotient remainder, compile (.binary .div l r) = .ok quotient ∧
      compile (.binary .mod l r) = .ok remainder ∧
    ∀ (row : Row) (a b : Int64), f row = .ok (.int a) → g row = .ok (.int b) →
      (b ≠ 0 → IsInt64 (a.toInt.tdiv b.toInt) → ∃ q m : Int64,
        quotient row = .ok (.int q) ∧ remainder row = .ok (.int m) ∧
        q.toInt = a.toInt.tdiv b.toInt ∧ m.toInt = a.toInt.tmod b.toInt ∧
        m.toInt.natAbs < b.toInt.natAbs ∧ (m.toInt = 0 ∨ m.toInt.sign = a.toInt.sign) ∧
        q.toInt * b.toInt + m.toInt = a.toInt) ∧
      (b = 0 → quotient row = .error (.type .divisionByZero) ∧
        remainder row = .error (.type .divisionByZero)) ∧
      (b ≠ 0 → ¬ IsInt64 (a.toInt.tdiv b.toInt) →
        quotient row = .error (.type (.overflow .div)) ∧
        remainder row = .error (.type (.overflow .mod))) ∧
      (¬ IsInt64 (a.toInt.tdiv b.toInt) ↔ a = Int64.minValue ∧ b = -1) := by
  refine ⟨strict .div f g,
    strict .mod f g, by rw [compile, left, right]; rfl, by rw [compile, left, right]; rfl, ?_⟩
  intro row a b dividend divisor
  have applied (op : BinaryOp) : strict op f g row = op.apply (.int a) (.int b) := by
    rw [strict, dividend, divisor]
    rfl
  simp only [applied]
  refine ⟨fun nonzero inside => ?_, ?_, BinaryOp.apply_outside, ?_⟩
  · obtain ⟨q, m, quotient, remainder, exactQuotient, exactRemainder⟩ :=
      BinaryOp.apply_inside nonzero inside
    refine ⟨q, m, quotient, remainder, exactQuotient, exactRemainder, ?_⟩
    rw [exactQuotient, exactRemainder]
    refine ⟨natAbs_tmod_lt (BinaryOp.toInt_ne_zero nonzero), tmod_eq_zero_or_sign _ _, ?_⟩
    rw [Int.mul_comm]
    exact Int.mul_tdiv_add_tmod _ _
  · rintro rfl
    exact BinaryOp.apply_zero a
  · rw [not_isInt64_tdiv_iff (isInt64_toInt a), ← Int64.toInt_inj, ← Int64.toInt_inj]
    rfl

theorem compile_division_seven :
    let row : Row := (NameMap.empty.insert "a" (.int (-7))).insert "b" (.int 2)
    ∃ quotient remainder, compile (.binary .div (.column ["a"]) (.column ["b"])) = .ok quotient ∧
      compile (.binary .mod (.column ["a"]) (.column ["b"])) = .ok remainder ∧
      ∃ q m : Int64, quotient row = .ok (.int q) ∧ remainder row = .ok (.int m) ∧ q.toInt = -3 ∧
        m.toInt = -1 := by
  intro row
  obtain ⟨quotient, remainder, compiled, compiled', divided⟩ :=
    compile_division (l := .column ["a"]) (r := .column ["b"]) rfl rfl
  obtain ⟨inside, -⟩ := divided row (-7) 2 rfl rfl
  obtain ⟨q, m, first, second, exact, exact', -⟩ := inside (by decide) (by decide)
  exact ⟨quotient, remainder, compiled, compiled', q, m, first, second, exact, exact'⟩

theorem compile_mod_least :
    let row : Row := (NameMap.empty.insert "a" (.int Int64.minValue)).insert "b" (.int (-1))
    (-1 : Int64) ≠ 0 ∧ (0 : Int64).toInt = Int64.minValue.toInt.tmod (-1 : Int64).toInt ∧
    ∃ e, compile (.binary .mod (.column ["a"]) (.column ["b"])) = .ok e ∧ e row ≠ .ok (.int 0) ∧
      e row = .error (.type (.overflow .mod)) := by
  intro row
  refine ⟨by decide, by decide, _, rfl, ?_, ?_⟩
  · rintro ⟨⟩
  · rfl

end Term

end RowQuery
