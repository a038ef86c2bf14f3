import RowQuery.Proofs.Number.Rounding
import RowQuery.Proofs.Value.Order

/-!
The order in which values are sorted. Integers are compared with doubles after they are rounded, and
this is all that keeps the order from being a total preorder: two different integers may be equal to
one double, from `2 ^ 53` on.
-/

namespace RowQuery.Value

/-- Two different integers that are rounded to one double. -/
inductive Blurred : Value → Value → Value → Prop
  | mk {i j : Int64} {x : Binary64} (apart : i ≠ j)
      (left : (Binary64.ofInt i.toInt).compare x = .eq)
    (right : (Binary64.ofInt j.toInt).compare x = .eq) : Blurred (int i) (float x) (int j)

/-- The place of a value among the kinds, where integers and doubles, which are compared with each
other, have one. -/
def group : Value → ℕ
  | float _ => Kind.int.rank
  | v => v.kind.rank

def rounded : Value → ℤ
  | int i => (Binary64.ofInt i.toInt).key
  | float x => x.key
  | _ => 0

variable {a b c : Value}

theorem Blurred.symm (h : Blurred a b c) : Blurred c b a := by
  cases h with
  | mk apart left right => exact .mk (Ne.symm apart) right left

theorem number_cases (h : a.group = Kind.int.rank) : (∃ i, a = int i) ∨ ∃ x, a = float x := by
  cases a with
  | int i => exact .inl ⟨i, rfl⟩
  | float x => exact .inr ⟨x, rfl⟩
  | null | bool | text | bytes => cases h

theorem kind_eq_of_group (h : a.group = b.group) (other : a.group ≠ Kind.int.rank) :
    a.kind = b.kind := by
  cases a <;> cases b <;> first | rfl | exact absurd rfl other | cases h

theorem sortOrder_of_group_lt (h : a.group < b.group) : a.sortOrder b = .lt := by
  cases a <;> cases b <;> first | rfl | simp [group, kind, Kind.rank] at h

theorem sortOrder_of_group_gt (h : b.group < a.group) : a.sortOrder b = .gt := by
  cases a <;> cases b <;> first | rfl | simp [group, kind, Kind.rank] at h

theorem sortOrder_of_kind (h : a.kind = b.kind) : a.sortOrder b = a.order b := by
  cases alike_of_kind h <;> rfl

theorem group_le_of_isLE (h : (a.sortOrder b).isLE = true) : a.group ≤ b.group := by
  refine Nat.not_lt.1 fun more => ?_
  rw [sortOrder_of_group_gt more] at h
  cases h

theorem sortOrder_swap (a b : Value) : a.sortOrder b = (b.sortOrder a).swap := by
  rcases Nat.lt_trichotomy a.group b.group with less | same | more
  · rw [sortOrder_of_group_lt less, sortOrder_of_group_gt less]
    rfl
  · rcases Decidable.em (a.group = Kind.int.rank) with number | other
    · obtain ⟨i, rfl⟩ | ⟨x, rfl⟩ := number_cases number <;> obtain ⟨j, rfl⟩ | ⟨y, rfl⟩ :=
        number_cases (same.symm.trans number)
      · exact order_swap (int i) (int j)
      · exact (Std.OrientedCmp.eq_swap : (Binary64.ofInt i.toInt).compare y = _)
      · exact (Std.OrientedCmp.eq_swap : x.compare (Binary64.ofInt j.toInt) = _)
      · exact order_swap (float x) (float y)
    · have kinds := kind_eq_of_group same other
      rw [sortOrder_of_kind kinds, sortOrder_of_kind kinds.symm, order_swap]
  · rw [sortOrder_of_group_lt more, sortOrder_of_group_gt more]
    rfl

instance : Std.OrientedCmp sortOrder where
  eq_swap := sortOrder_swap _ _

theorem isLE_sortOrder_int {i j : Int64} :
    ((int i).sortOrder (int j)).isLE = true ↔ i.toInt ≤ j.toInt :=
  Std.isLE_compare.trans Int64.le_iff_toInt_le

theorem rounded_le_of_isLE (number : a.group = Kind.int.rank) (number' : b.group = Kind.int.rank)
    (h : (a.sortOrder b).isLE = true) : a.rounded ≤ b.rounded := by
  obtain ⟨i, rfl⟩ | ⟨x, rfl⟩ := number_cases number <;> obtain ⟨j, rfl⟩ | ⟨y, rfl⟩ :=
    number_cases number'
  · exact Binary64.key_ofInt_mono (isLE_sortOrder_int.1 h)
  · exact Binary64.isLE_compare.1 h
  · exact Binary64.isLE_compare.1 h
  · exact Binary64.isLE_compare.1 h

/-- Numbers in order stay in order, but for two integers around a double. -/
theorem isLE_trans_of_numbers (number : a.group = Kind.int.rank) (number' : b.group = Kind.int.rank)
    (number'' : c.group = Kind.int.rank) (hab : (a.sortOrder b).isLE = true)
    (hbc : (b.sortOrder c).isLE = true) (clear : ¬ (Blurred a b c ∧ c.sortOrder a = .lt)) :
    (a.sortOrder c).isLE = true := by
  have keys := rounded_le_of_isLE number number' hab
  have keys' := rounded_le_of_isLE number' number'' hbc
  obtain ⟨i, rfl⟩ | ⟨x, rfl⟩ := number_cases number <;> obtain ⟨k, rfl⟩ | ⟨z, rfl⟩ :=
    number_cases number''
  · obtain ⟨j, rfl⟩ | ⟨y, rfl⟩ := number_cases number'
    · exact isLE_sortOrder_int.2 ((isLE_sortOrder_int.1 hab).trans (isLE_sortOrder_int.1 hbc))
    · rw [isLE_sortOrder_int]
      by_contra! less
      have back := Binary64.key_ofInt_mono less.le
      simp only [rounded] at keys keys'
      refine clear ⟨.mk (fun same => ?_) (Binary64.compare_eq_eq.2 (by omega))
        (Binary64.compare_eq_eq.2 (by omega)), ?_⟩
      · rw [same] at less
        exact less.false
      · exact Std.compare_eq_lt.2 (Int64.lt_iff_toInt_lt.2 less)
  · exact Binary64.isLE_compare.2 (keys.trans keys')
  · exact Binary64.isLE_compare.2 (keys.trans keys')
  · exact Binary64.isLE_compare.2 (keys.trans keys')

theorem isLE_sortOrder_trans (hab : (a.sortOrder b).isLE = true) (hbc : (b.sortOrder c).isLE = true)
    (clear : ¬ (Blurred a b c ∧ c.sortOrder a = .lt)) : (a.sortOrder c).isLE = true := by
  have groups := group_le_of_isLE hab
  have groups' := group_le_of_isLE hbc
  rcases (groups.trans groups').eq_or_lt with same | less
  · have first : a.group = b.group := by omega
    have second : b.group = c.group := by omega
    rcases Decidable.em (b.group = Kind.int.rank) with number | other
    · exact isLE_trans_of_numbers (first.trans number) number
        (second.symm.trans number) hab hbc clear
    · have kinds := kind_eq_of_group first (first ▸ other)
      have kinds' := kind_eq_of_group second other
      rw [sortOrder_of_kind kinds] at hab
      rw [sortOrder_of_kind kinds'] at hbc
      rw [sortOrder_of_kind (kinds.trans kinds')]
      exact isLE_order_trans hab hbc
  · rw [sortOrder_of_group_lt less]
    rfl

theorem sortOrder_congr (h : a.same b = true) (c : Value) : c.sortOrder a = c.sortOrder b := by
  have forms := same_iff.1 h
  have kinds : a.kind = b.kind := by rw [← kind_canonical a, forms, kind_canonical]
  cases alike_of_kind kinds with
  | null => rfl
  | bool | int | text | bytes => exact congrArg _ forms
  | float x y =>
    have keys : x.key = y.key := Binary64.canonical_eq_iff.1 (float.inj forms)
    have place (z : Binary64) : z.compare x = z.compare y := congrArg (Ord.compare z.key) keys
    cases c with
    | int i => exact place _
    | float z => exact place z
    | null | bool | text | bytes => rfl

theorem Blurred.ne (h : Blurred a b c) : a.sortOrder c ≠ .eq := by
  cases h with
  | mk apart left right => exact fun same => apart (Std.compare_eq_iff_eq.1 same)

theorem Blurred.large {i j : Int64} (h : Blurred (int i) b (int j)) :
    2 ^ 53 ≤ i.toInt.natAbs ∧ 2 ^ 53 ≤ j.toInt.natAbs := by
  cases h with
  | mk apart left right =>
    have same := (Binary64.compare_eq_eq.1 left).trans (Binary64.compare_eq_eq.1 right).symm
    by_contra small
    rw [not_and_or, Nat.not_le, Nat.not_le] at small
    rcases lt_trichotomy i.toInt j.toInt with less | equal | more
    · exact (Binary64.key_ofInt_lt small less).ne same
    · exact apart (Int64.toInt_inj.1 equal)
    · exact (Binary64.key_ofInt_lt small.symm more).ne same.symm

/-- The order in which values are sorted is reflexive, and turns around with its arguments. It is
transitive, and so is being equal in it, but for two different integers with a double between them
to which both are rounded; these are equal to the double and not to each other. No such integers are
below `2 ^ 53`. -/
theorem sortOrder_preorder_unless_blurred (a b c : Value) :
    a.sortOrder a = .eq ∧ b.sortOrder a = (a.sortOrder b).swap ∧
    ((a.sortOrder b).isLE = true → (b.sortOrder c).isLE = true →
      ((a.sortOrder c).isLE = true ↔ ¬ (Blurred a b c ∧ c.sortOrder a = .lt))) ∧
    (a.sortOrder b = .eq → b.sortOrder c = .eq → (a.sortOrder c = .eq ↔ ¬ Blurred a b c)) ∧
    (Blurred a b c → ∃ i j, a = int i ∧ c = int j ∧ 2 ^ 53 ≤ i.toInt.natAbs ∧
      2 ^ 53 ≤ j.toInt.natAbs) := by
  refine ⟨Std.ReflCmp.compare_self, sortOrder_swap b a,
    fun hab hbc => ⟨?_, isLE_sortOrder_trans hab hbc⟩, ?_, ?_⟩
  · rintro le ⟨-, less⟩
    rw [sortOrder_swap, less] at le
    cases le
  · intro hab hbc
    refine ⟨fun same blurred => blurred.ne same, fun clear => ?_⟩
    have forth : (a.sortOrder c).isLE = true :=
      isLE_sortOrder_trans (by rw [hab]; rfl) (by rw [hbc]; rfl) fun both => clear both.1
    have back : (c.sortOrder a).isLE = true :=
      isLE_sortOrder_trans (by rw [sortOrder_swap, hbc]; rfl) (by rw [sortOrder_swap, hab]; rfl)
        fun both => clear both.1.symm
    exact Std.OrientedCmp.isLE_antisymm forth back
  · intro blurred
    cases blurred with
    | mk apart left right => exact ⟨_, _, rfl, rfl, Blurred.large (.mk apart left right)⟩

theorem sortOrder_preorder_unless_blurred_odd :
    let a := int 9007199254740993
    let b := float (.ofInt 9007199254740992)
    let c := int 9007199254740992
    a.sortOrder b = .eq ∧ b.sortOrder c = .eq ∧ Blurred a b c ∧ a.sortOrder c ≠ .eq ∧
    (a.sortOrder c).isLE = false := by
  intro a b c
  have first : a.sortOrder b = .eq := by decide +kernel
  have second : b.sortOrder c = .eq := by decide +kernel
  have blurred : Blurred a b c := .mk (by decide) (by decide +kernel) (by decide +kernel)
  have less : c.sortOrder a = .lt := by decide +kernel
  obtain ⟨-, -, order, equal, -⟩ := sortOrder_preorder_unless_blurred a b c
  refine ⟨first, second, blurred, fun same => (equal first second).1 same blurred, ?_⟩
  rw [← Bool.not_eq_true]
  exact fun le => (order (by rw [first]; rfl) (by rw [second]; rfl)).1 le ⟨blurred, less⟩

end RowQuery.Value
