import Mathlib.Data.List.Forall2
import RowQuery.Proofs.Value.Hashing
import RowQuery.Row

/-!
Rows inherit the order, the equality and the hash of values: rows are the same when they have the
same columns with the same values in them, and these are the rows that are at one place in the order
and that a hash function cannot tell apart.
-/

namespace RowQuery

namespace Row

def orderEntry (e f : String × Value) : Ordering := (compare e.1 f.1).then (e.2.order f.2)

instance : Std.TransCmp fun e f : String × Value => e.2.order f.2 where
  eq_swap := Value.order_swap _ _
  isLE_trans := Value.isLE_order_trans

instance : Std.TransCmp orderEntry :=
  inferInstanceAs (Std.TransCmp
    (compareLex (compareOn Prod.fst) fun e f : String × Value => e.2.order f.2))

theorem orderEntries_eq (l l' : List (String × Value)) :
    orderEntries l l' = List.compareLex orderEntry l l' := by
  induction l generalizing l' with
  | nil => cases l' <;> rfl
  | cons e l ih =>
    cases l' with
    | nil => rfl
    | cons f l' =>
      rw [List.compareLex_cons_cons, ← ih]
      rfl

instance : Std.TransCmp order where
  eq_swap {a b} := by
    rw [order, order, orderEntries_eq, orderEntries_eq]
    exact Std.OrientedCmp.eq_swap
  isLE_trans {a b c} hab hbc := by
    rw [order, orderEntries_eq] at hab hbc ⊢
    exact Std.TransCmp.isLE_trans hab hbc

def SameEntry (e f : String × Value) : Prop := e.1 = f.1 ∧ e.2.same f.2 = true

theorem orderEntry_eq_eq {e f : String × Value} : orderEntry e f = .eq ↔ SameEntry e f := by
  rw [orderEntry, Ordering.then_eq_eq, Std.compare_eq_iff_eq, SameEntry, Value.same, beq_iff_eq]

theorem orderEntries_eq_eq {l l' : List (String × Value)} :
    orderEntries l l' = .eq ↔ List.Forall₂ SameEntry l l' := by
  induction l generalizing l' with
  | nil => cases l' <;> simp [orderEntries]
  | cons e l ih =>
    cases l' with
    | nil => simp [orderEntries]
    | cons f l' =>
      have head : orderEntries (e :: l) (f :: l') = (orderEntry e f).then (orderEntries l l') := rfl
      rw [head, Ordering.then_eq_eq, orderEntry_eq_eq, ih, List.forall₂_cons]

variable {a b : Row}

theorem same_iff : a.same b = true ↔ List.Forall₂ SameEntry a.entries b.entries := by
  rw [same, beq_iff_eq, order, orderEntries_eq_eq]

def entryWrites (e : String × Value) : List Bytes := Bytes.ofText e.1 :: [0xff] :: e.2.hashWrites

def hashWrites (row : Row) : List Bytes :=
  Value.littleEndian 8 row.size :: row.entries.flatMap entryWrites

def entryInput (e : String × Value) : Bytes := Bytes.ofText e.1 ++ 0xff :: e.2.hashInput

theorem flatten_entryWrites (e : String × Value) : (entryWrites e).flatten = entryInput e := by
  rw [entryWrites, List.flatten_cons, List.flatten_cons, Value.flatten_hashWrites]
  rfl

theorem flatten_hashWrites (row : Row) : row.hashWrites.flatten = row.hashInput := by
  have entries (l : List (String × Value)) :
      (l.flatMap entryWrites).flatten = l.flatMap entryInput := by
    induction l with
    | nil => rfl
    | cons e l ih =>
      rw [List.flatMap_cons, List.flatten_append, flatten_entryWrites, ih, List.flatMap_cons]
  rw [hashWrites, List.flatten_cons, entries]
  rfl

theorem entryWrites_append {e f : String × Value} {r r' : List Bytes}
    (h : entryWrites e ++ r = entryWrites f ++ r') :
    SameEntry e f ∧ r = r' := by
  obtain ⟨name, rest⟩ := List.cons.inj h
  obtain ⟨forms, rest⟩ := Value.hashWrites_append (List.cons.inj rest).2
  exact ⟨⟨Bytes.ofText_injective name, Value.same_iff.2 forms⟩, rest⟩

theorem entryWrites_ne_nil (e : String × Value) : entryWrites e ≠ [] := by
  rw [entryWrites]
  exact List.cons_ne_nil _ _

/-- Lists whose elements can be told from what follows them match element by element. -/
theorem forall₂_of_flatMap {α β : Type} {f : α → List β} {R : α → α → Prop} (full : ∀ e, f e ≠ [])
    {l l' : List α} (first : ∀ e ∈ l, ∀ e' ∈ l', ∀ r r', f e ++ r = f e' ++ r' → R e e' ∧ r = r')
    (h : l.flatMap f = l'.flatMap f) : List.Forall₂ R l l' := by
  induction l generalizing l' with
  | nil =>
    cases l' with
    | nil => exact .nil
    | cons e' l' => exact absurd (List.append_eq_nil_iff.1 h.symm).1 (full e')
  | cons e l ih =>
    cases l' with
    | nil => exact absurd (List.append_eq_nil_iff.1 h).1 (full e)
    | cons e' l' =>
      rw [List.flatMap_cons, List.flatMap_cons] at h
      obtain ⟨related, rest⟩ := first e List.mem_cons_self e' List.mem_cons_self _ _ h
      refine .cons related (ih (fun d hd d' hd' => ?_) rest)
      exact first d (List.mem_cons_of_mem _ hd) d' (List.mem_cons_of_mem _ hd')

theorem writes_of_forall₂ {l l' : List (String × Value)} (h : List.Forall₂ SameEntry l l') :
    l.flatMap entryWrites = l'.flatMap entryWrites := by
  induction h with
  | nil => rfl
  | cons same _ ih =>
    rw [List.flatMap_cons, List.flatMap_cons, ih, entryWrites, entryWrites, same.1,
      Value.same_iff_hashWrites.1 same.2]

theorem same_iff_hashWrites : a.same b = true ↔ a.hashWrites = b.hashWrites := by
  rw [same_iff]
  constructor
  · intro same
    rw [hashWrites, hashWrites, writes_of_forall₂ same, NameMap.size, NameMap.size, same.length_eq]
  · intro writes
    exact forall₂_of_flatMap entryWrites_ne_nil (fun _ _ _ _ _ _ => entryWrites_append)
      (List.cons.inj writes).2

def Countable (row : Row) : Prop := ∀ e ∈ row.entries, e.2.Countable

theorem entryInput_ne_nil (e : String × Value) : entryInput e ≠ [] := by
  rw [entryInput]
  exact List.append_ne_nil_of_right_ne_nil _ (List.cons_ne_nil _ _)

theorem entryInput_append {e f : String × Value} {r r' : Bytes} (countable : e.2.Countable)
    (countable' : f.2.Countable) (h : entryInput e ++ r = entryInput f ++ r') :
    SameEntry e f ∧ r = r' := by
  rw [entryInput, entryInput, List.append_assoc, List.append_assoc] at h
  obtain ⟨name, rest⟩ := Bytes.append_cons_inj (Bytes.notMem_ofText e.1) (Bytes.notMem_ofText f.1) h
  obtain ⟨forms, rest⟩ := Value.hashInput_append (.inr ⟨countable, countable'⟩) rest
  exact ⟨⟨Bytes.ofText_injective name, Value.same_iff.2 forms⟩, rest⟩

theorem same_iff_hashInput (countable : a.Countable) (countable' : b.Countable) :
    a.same b = true ↔ a.hashInput = b.hashInput := by
  constructor
  · intro same
    rw [← flatten_hashWrites, same_iff_hashWrites.1 same, flatten_hashWrites]
  · intro input
    refine same_iff.2 (forall₂_of_flatMap entryInput_ne_nil (fun e he f hf r r' => ?_)
      (List.append_inj input (by simp)).2)
    exact entryInput_append (countable e he) (countable' f hf)

end Row

/-- An order that is total up to an equality, and what is fed to a hash function, one write after
another, so that it differs exactly where the equality does. -/
structure OrderedAndHashed {α : Type} (order : α → α → Ordering) (same : α → α → Bool)
    (writes : α → List Bytes) :
    Prop where
  refl : ∀ a, order a a = .eq
  swap : ∀ a b, order b a = (order a b).swap
  trans : ∀ a b c, (order a b).isLE = true → (order b c).isLE = true → (order a c).isLE = true
  same_iff : ∀ a b, same a b = true ↔ order a b = .eq
  writes_iff : ∀ a b, same a b = true ↔ writes a = writes b

theorem OrderedAndHashed.ofTransCmp {α : Type} {order : α → α → Ordering} [Std.TransCmp order]
    {writes : α → List Bytes}
    (writes_iff : ∀ a b, (order a b == .eq) = true ↔ writes a = writes b) :
    OrderedAndHashed order (fun a b => order a b == .eq) writes where
  refl _ := Std.ReflCmp.compare_self
  swap _ _ := Std.OrientedCmp.eq_swap
  trans _ _ _ := Std.TransCmp.isLE_trans
  same_iff _ _ := beq_iff_eq
  writes_iff := writes_iff

/-- The order of values is total up to being the same, which is what a hash function sees of them:
all NaN are the same, and so are both zeros, and no integer is the same as a double. Rows inherit
this, whatever their width: they are the same when they have as many entries, each with the name of
the other and the same value. The bytes that are fed to a hash function tell as much as its single
writes do, where the lengths of values fit into the bytes that are fed for them. -/
theorem values_and_rows_ordered_and_hashed :
    OrderedAndHashed Value.order Value.same Value.hashWrites ∧
    OrderedAndHashed Row.order Row.same Row.hashWrites ∧
    (∀ x y : Binary64, (Value.float x).same (.float y) = true ↔
      (x.isNaN = true ∧ y.isNaN = true) ∨ (x.isZero = true ∧ y.isZero = true) ∨ x = y) ∧
    (∀ (i : Int64) (x : Binary64), (Value.int i).same (.float x) = false) ∧
    (∀ a b : Row, a.same b = true ↔
      List.Forall₂ (fun e f => e.1 = f.1 ∧ e.2.same f.2 = true) a.entries b.entries) ∧
    (∀ a b : Value, a.same b = true ↔ a.hashInput = b.hashInput) ∧
    (∀ a b : Row, a.Countable → b.Countable → (a.same b = true ↔ a.hashInput = b.hashInput)) := by
  refine ⟨.ofTransCmp fun _ _ => Value.same_iff_hashWrites,
    .ofTransCmp fun _ _ => Row.same_iff_hashWrites, fun x y => ?_,
    fun _ _ => rfl, fun _ _ => Row.same_iff,
      fun _ _ => Value.same_iff_hashInput, fun _ _ => Row.same_iff_hashInput⟩
  rw [Value.same, beq_iff_eq, Value.order, Binary64.compare_eq_eq, Binary64.key_eq_iff]

theorem values_and_rows_ordered_and_hashed_patterns :
    let row (zero nan : Binary64) : Row :=
      ((NameMap.empty.insert "b" (.bytes [7, 255])).insert "n" (.float nan)).insert
        "z" (.float zero)
    let a := row ⟨0x8000000000000000⟩ ⟨0xfff8000000000001⟩
    let b := row ⟨0⟩ ⟨0x7ff8000000000000⟩
    a ≠ b ∧ a.Countable ∧ b.Countable ∧ a.same b = true ∧ a.hashInput = b.hashInput := by
  intro row a b
  have countable (zero nan : Binary64) : (row zero nan).Countable := by
    have entries : (row zero nan).entries
      = [("b", .bytes [7, 255]), ("n", .float nan), ("z", .float zero)] := by rfl
    simp [Row.Countable, entries, Value.Countable]
  have same : a.same b = true := by decide +kernel
  obtain ⟨-, -, -, -, -, -, hashed⟩ := values_and_rows_ordered_and_hashed
  exact ⟨by decide, countable _ _, countable _ _, same,
    (hashed a b (countable _ _) (countable _ _)).1 same⟩

end RowQuery
