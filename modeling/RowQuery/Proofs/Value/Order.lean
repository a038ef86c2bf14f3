import RowQuery.Proofs.Number.Ratio
import RowQuery.Value.Order

/-!
The order of values within their kinds, and of the kinds, is a total preorder. Values are the same
in it when they have one canonical form, which all values but doubles are themselves.
-/

namespace RowQuery

namespace Binary64

instance : Std.TransCmp compare := inferInstanceAs (Std.TransCmp (compareOn key))

variable {x y : Binary64}

theorem isLE_compare : (x.compare y).isLE = true ↔ x.key ≤ y.key := Int.isLE_compare

theorem compare_eq_eq : x.compare y = .eq ↔ x.key = y.key := Std.compare_eq_iff_eq

theorem key_of_isNaN (nan : x.isNaN = true) : x.key = 2 ^ 63 := by
  rw [key, if_pos nan]

theorem natAbs_key (number : x.isNaN = false) : x.key.natAbs = x.magnitude := by
  rw [key, number, if_neg Bool.false_ne_true]
  split <;> omega

theorem magnitude_le (number : x.isNaN = false) : x.magnitude ≤ infinityMagnitude := by
  rw [isNaN, decide_eq_false_iff_not] at number
  exact Nat.not_lt.1 number

theorem key_eq_key_of_isNaN (nan : x.isNaN = true) (same : x.key = y.key) : y.isNaN = true := by
  rw [← Bool.not_eq_false]
  intro number
  have bound := magnitude_le number
  rw [← natAbs_key number, ← same, key_of_isNaN nan] at bound
  exact absurd bound (by decide)

theorem isNegative_iff (number : x.isNaN = false) (nonzero : x.magnitude ≠ 0) :
    x.isNegative = true ↔ x.key < 0 := by
  rw [key, number, if_neg Bool.false_ne_true]
  split <;> simp_all
  omega

theorem eq_of_key_eq (number : x.isNaN = false) (number' : y.isNaN = false)
    (nonzero : x.magnitude ≠ 0) (same : x.key = y.key) : x = y := by
  have magnitude : x.magnitude = y.magnitude := by
    rw [← natAbs_key number, same, natAbs_key number']
  have sign : x.isNegative = y.isNegative := by
    rw [Bool.eq_iff_iff, isNegative_iff number nonzero,
      isNegative_iff number' (magnitude ▸ nonzero), same]
  rw [← x.ofMagnitude_magnitude, ← y.ofMagnitude_magnitude, sign, magnitude]

theorem isNaN_of_isZero (zero : x.isZero = true) : x.isNaN = false := by
  rw [isNaN, eq_of_beq zero]
  rfl

theorem key_of_isZero (zero : x.isZero = true) : x.key = 0 := by
  rw [← Int.natAbs_eq_zero, natAbs_key (isNaN_of_isZero zero), eq_of_beq zero]

theorem key_eq_iff : x.key = y.key ↔
    (x.isNaN = true ∧ y.isNaN = true) ∨ (x.isZero = true ∧ y.isZero = true) ∨ x = y := by
  constructor
  · intro same
    cases nan : x.isNaN with
    | true => exact .inl ⟨rfl, key_eq_key_of_isNaN nan same⟩
    | false =>
      have number : y.isNaN = false := Bool.eq_false_iff.2 fun nan' => by
        rw [key_eq_key_of_isNaN nan' same.symm] at nan
        cases nan
      rcases Decidable.em (x.magnitude = 0) with zero | nonzero
      · have zero' : y.magnitude = 0 := by rw [← natAbs_key number, ← same, natAbs_key nan, zero]
        exact .inr (.inl ⟨beq_iff_eq.2 zero, beq_iff_eq.2 zero'⟩)
      · exact .inr (.inr (eq_of_key_eq nan number nonzero same))
  · rintro (⟨nan, nan'⟩ | ⟨zero, zero'⟩ | rfl)
    · rw [key_of_isNaN nan, key_of_isNaN nan']
    · rw [key_of_isZero zero, key_of_isZero zero']
    · rfl

@[simp] theorem key_canonical (x : Binary64) : x.canonical.key = x.key := by
  rw [canonical]
  split
  · next isNaN => rw [key_of_isNaN isNaN, key_of_isNaN (by decide)]
  · split
    · next zero => rw [key_of_isZero zero, key_of_isZero (by decide)]
    · rfl

theorem canonical_eq_iff : x.canonical = y.canonical ↔ x.key = y.key := by
  constructor
  · intro same
    rw [← key_canonical, same, key_canonical]
  · intro same
    rcases key_eq_iff.1 same with ⟨isNaN, isNaN'⟩ | ⟨zero, zero'⟩ | rfl
    · rw [canonical, canonical, if_pos isNaN, if_pos isNaN']
    · rw [canonical, canonical, isNaN_of_isZero zero, isNaN_of_isZero zero', zero, zero']
      rfl
    · rfl

end Binary64

namespace Value

inductive Alike : Value → Value → Prop
  | null : Alike null null
  | bool (a b : Bool) : Alike (bool a) (bool b)
  | int (i j : Int64) : Alike (int i) (int j)
  | float (x y : Binary64) : Alike (float x) (float y)
  | text (s t : String) : Alike (text s) (text t)
  | bytes (b c : Bytes) : Alike (bytes b) (bytes c)

variable {a b c : Value}

theorem alike_of_kind (h : a.kind = b.kind) : Alike a b := by
  cases a <;> cases b <;> first | constructor | cases h

theorem kind_eq_of_rank (h : a.kind.rank = b.kind.rank) : a.kind = b.kind := by
  cases ha : a.kind <;> cases hb : b.kind <;> first | rfl | simp [ha, hb, Kind.rank] at h

theorem order_of_kind_ne (h : a.kind ≠ b.kind) : a.order b = compare a.kind.rank b.kind.rank := by
  cases a <;> cases b <;> first | rfl | exact absurd rfl h

theorem rank_le_of_isLE_order (h : (a.order b).isLE = true) : a.kind.rank ≤ b.kind.rank := by
  rcases Decidable.em (a.kind = b.kind) with same | other
  · rw [same]
  · rw [order_of_kind_ne other] at h
    exact Nat.isLE_compare.1 h

theorem order_swap (a b : Value) : a.order b = (b.order a).swap := by
  rcases Decidable.em (a.kind = b.kind) with same | other
  · cases alike_of_kind same with
    | null => rfl
    | bool | int | float | text | bytes =>
      simp only [order]
      exact Std.OrientedCmp.eq_swap
  · rw [order_of_kind_ne other, order_of_kind_ne (Ne.symm other)]
    exact Std.OrientedCmp.eq_swap

theorem isLE_order_trans (hab : (a.order b).isLE = true) (hbc : (b.order c).isLE = true) :
    (a.order c).isLE = true := by
  have ranks := rank_le_of_isLE_order hab
  have ranks' := rank_le_of_isLE_order hbc
  rcases (ranks.trans ranks').eq_or_lt with same | less
  · have first := alike_of_kind (kind_eq_of_rank (a := a) (b := b) (by omega))
    have second := alike_of_kind (kind_eq_of_rank (a := b) (b := c) (by omega))
    cases first with
    | null => exact hbc
    | bool | int | float | text | bytes =>
      cases second
      simp only [order] at hab hbc ⊢
      exact Std.TransCmp.isLE_trans hab hbc
  · rw [order_of_kind_ne fun same => less.ne (congrArg Kind.rank same)]
    exact Nat.isLE_compare.2 less.le

instance : Std.TransCmp order where
  eq_swap := order_swap _ _
  isLE_trans := isLE_order_trans

def canonical : Value → Value
  | float x => float x.canonical
  | v => v

@[simp] theorem kind_canonical (v : Value) : v.canonical.kind = v.kind := by
  cases v <;> rfl

/-- Values are the same when they have one canonical form. -/
theorem same_iff : a.same b = true ↔ a.canonical = b.canonical := by
  rw [same, beq_iff_eq]
  rcases Decidable.em (a.kind = b.kind) with same | other
  · cases alike_of_kind same with
    | null => simp [order, canonical]
    | bool | int | text | bytes => simp [order, canonical]
    | float x y =>
      rw [canonical, canonical, order, Binary64.compare_eq_eq, float.injEq,
        Binary64.canonical_eq_iff]
  · rw [order_of_kind_ne other, Nat.compare_eq_eq]
    constructor
    · intro ranks
      exact absurd (kind_eq_of_rank ranks) other
    · intro forms
      rw [← kind_canonical a, forms, kind_canonical] at other
      exact absurd rfl other

end Value

end RowQuery
