import RowQuery.Pipeline.Stage
import RowQuery.Proofs.Sorting.Runs
import RowQuery.Proofs.Value.SortOrder

/-!
Sorting rows by keys. It fails where a row lacks a column to sort by, and rearranges the rows
otherwise. Where the values in each of the columns are ordered transitively, what comes out is the
one list in the order of the keys in which rows that are tied have kept their order.
-/

namespace RowQuery

namespace SortKey

/-- What a row has in the column of a key; null where it lacks the column. -/
def valueIn (key : SortKey) (row : Row) : Value := (row.get? key.column).getD .null

def orderRows : List SortKey → Row → Row → Ordering
  | [], _, _ => .eq
  | key :: keys, a, b => (key.compare (key.valueIn a) (key.valueIn b)).then (orderRows keys a b)

def tied (keys : List SortKey) (a b : Row) : Bool :=
  keys.all fun key => (key.valueIn a).sortOrder (key.valueIn b) == .eq

def missing? (keys : List SortKey) (rows : List Row) : Option String :=
  rows.findSome? fun row => (keys.find? fun key => !row.contains key.column).map (·.column)

/-- The values that rows have in the column of a key are ordered transitively. -/
def Transitive (key : SortKey) (rows : List Row) : Prop :=
  ∀ a ∈ rows, ∀ b ∈ rows, ∀ c ∈ rows,
    ((key.valueIn a).sortOrder (key.valueIn b)).isLE = true →
    ((key.valueIn b).sortOrder (key.valueIn c)).isLE = true →
      ((key.valueIn a).sortOrder (key.valueIn c)).isLE = true

def Along (key : SortKey) (a b : Row) : Prop :=
  match key.direction with
  | .ascending => ((key.valueIn a).sortOrder (key.valueIn b)).isLE = true
  | .descending => ((key.valueIn b).sortOrder (key.valueIn a)).isLE = true

/-- Two rows come in the direction of every key, as far as the keys before it do not tell them
apart. -/
def InOrder (keys : List SortKey) (a b : Row) : Prop :=
  ∀ before key after, keys = before ++ key :: after → tied before a b = true → key.Along a b

variable {keys : List SortKey} {rows : List Row}

theorem compare_swap (key : SortKey) (a b : Value) : key.compare a b = (key.compare b a).swap := by
  rw [compare, compare]
  cases key.direction <;> exact Value.sortOrder_swap _ _

theorem isLE_compare {key : SortKey} {a b : Row} :
    (key.compare (key.valueIn a) (key.valueIn b)).isLE = true ↔ key.Along a b := by
  rw [compare, Along]
  cases key.direction <;> rfl

theorem compare_eq_eq {key : SortKey} {a b : Value} :
    key.compare a b = .eq ↔ a.sortOrder b = .eq := by
  rw [compare]
  cases key.direction with
  | ascending => rfl
  | descending => exact (Std.OrientedCmp.eq_comm : b.sortOrder a = .eq ↔ _)

theorem tied_cons {key : SortKey} {a b : Row} : tied (key :: keys) a b = true ↔
    key.compare (key.valueIn a) (key.valueIn b) = .eq ∧ tied keys a b = true := by
  rw [compare_eq_eq, tied, List.all_cons, Bool.and_eq_true, beq_iff_eq]
  rfl

theorem orderRows_eq_eq {a b : Row} : orderRows keys a b = .eq ↔ tied keys a b = true := by
  induction keys with
  | nil => exact iff_of_true rfl rfl
  | cons key keys ih => rw [orderRows, Ordering.then_eq_eq, ih, tied_cons]

theorem tied_eq (keys : List SortKey) (a b : Row) :
    tied keys a b = (orderRows keys a b == .eq) := by
  rw [Bool.eq_iff_iff, beq_iff_eq, orderRows_eq_eq]

theorem compareAll_map (keys : List SortKey) (a b : Row) :
    compareAll keys (keys.map (·.valueIn a)) (keys.map (·.valueIn b)) = orderRows keys a b := by
  induction keys with
  | nil => rfl
  | cons key keys ih => rw [List.map_cons, List.map_cons, compareAll, orderRows, ih]

theorem values_eq (keys : List SortKey) (row : Row) : values keys row =
    match keys.find? fun key => !row.contains key.column with
    | some key => .error (.columnNotFound key.column)
    | none => .ok (keys.map (·.valueIn row)) := by
  induction keys with
  | nil => rfl
  | cons key keys ih =>
    rw [values, List.mapM_cons, ← values, ih, Row.lookup, List.find?_cons, NameMap.contains]
    cases found : row.get? key.column with
    | none => rfl
    | some value =>
      have valueIn : key.valueIn row = value := by rw [SortKey.valueIn, found, Option.getD_some]
      cases keys.find? fun key => !row.contains key.column with
      | some other => rfl
      | none =>
        rw [List.map_cons, valueIn]
        rfl

theorem keyed_eq (keys : List SortKey) (rows : List Row) :
    (rows.mapM fun row => do return (← values keys row, row) : Eval (List (List Value × Row))) =
      match missing? keys rows with
      | some name => .error (.columnNotFound name)
      | none => .ok (rows.map fun row => (keys.map (·.valueIn row), row)) := by
  induction rows with
  | nil => rfl
  | cons row rows ih =>
    have first : missing? keys (row :: rows)
        = ((keys.find? fun key => !row.contains key.column).map (·.column)).or
          (missing? keys rows) := by
      rw [missing?, List.findSome?_cons]
      cases keys.find? fun key => !row.contains key.column <;> rfl
    rw [List.mapM_cons, ih, values_eq, first]
    cases keys.find? fun key => !row.contains key.column with
    | some key => rfl
    | none => cases missing? keys rows <;> rfl

theorem missing?_nil (rows : List Row) : missing? [] rows = none := by
  rw [missing?, List.findSome?_eq_none_iff]
  exact fun _ _ => rfl

theorem missing?_eq_none :
    missing? keys rows = none ↔ ∀ row ∈ rows, ∀ key ∈ keys, row.contains key.column = true := by
  simp [missing?, List.findSome?_eq_none_iff]

theorem transCmp_compare {key : SortKey} (h : key.Transitive rows) :
    Std.TransCmp (Sorting.within
      (fun a b => key.compare (key.valueIn a) (key.valueIn b)) rows) where
  eq_swap := compare_swap _ _ _
  isLE_trans {a b c} := by
    simp only [Sorting.within, compare]
    cases key.direction with
    | ascending => exact h a a.2 b b.2 c c.2
    -- the two steps come the other way round
    | descending => exact fun first second => h c c.2 b b.2 a a.2 second first

theorem transCmp_orderRows (h : ∀ key ∈ keys, key.Transitive rows) :
    Std.TransCmp (Sorting.within (orderRows keys) rows) := by
  induction keys with
  | nil => exact { eq_swap := rfl, isLE_trans := fun _ _ => rfl }
  | cons key keys ih =>
    obtain ⟨first, rest⟩ := List.forall_mem_cons.1 h
    have := transCmp_compare first
    have := ih rest
    exact inferInstanceAs (Std.TransCmp (compareLex
      (Sorting.within (fun a b => key.compare (key.valueIn a) (key.valueIn b)) rows)
        (Sorting.within (orderRows keys) rows)))

theorem orderRows_swap (keys : List SortKey) (a b : Row) :
    orderRows keys a b = (orderRows keys b a).swap := by
  induction keys with
  | nil => rfl
  | cons key keys ih => rw [orderRows, orderRows, Ordering.swap_then, ← compare_swap, ← ih]

instance : Std.OrientedCmp (orderRows keys) where
  eq_swap := orderRows_swap _ _ _

theorem inOrder_cons {key : SortKey} {a b : Row} : InOrder (key :: keys) a b ↔
    key.Along a b ∧ (key.compare (key.valueIn a) (key.valueIn b) = .eq → InOrder keys a b) := by
  constructor
  · intro h
    refine ⟨h [] key keys rfl rfl, fun equal before other after split tied => ?_⟩
    exact h (key :: before) other after (by rw [split, List.cons_append])
      (tied_cons.2 ⟨equal, tied⟩)
  · rintro ⟨first, rest⟩ before other after split tied
    cases before with
    | nil =>
      obtain ⟨rfl, rfl⟩ := List.cons.inj split
      exact first
    | cons head before =>
      obtain ⟨rfl, later⟩ := List.cons.inj split
      obtain ⟨equal, tied⟩ := tied_cons.1 tied
      exact rest equal before other after later tied

theorem isLE_orderRows {a b : Row} : (orderRows keys a b).isLE = true ↔ InOrder keys a b := by
  induction keys with
  | nil => exact iff_of_true rfl fun before key after split => by simp at split
  | cons key keys ih =>
    rw [inOrder_cons, ← isLE_compare, ← ih, orderRows]
    cases key.compare (key.valueIn a) (key.valueIn b) <;> simp

end SortKey

open SortKey (orderRows tied missing? InOrder)

theorem sort_of_keys_nil (rows : List Row) :
    Sorting.sort (fun a b => orderRows [] a b == .lt) rows = rows := by
  have onto (done : List Row) :
      Sorting.sortOnto (fun a b => orderRows [] a b == .lt) done rows = done.reverse ++ rows := by
    induction rows generalizing done with
    | nil => rw [Sorting.sortOnto, List.append_nil]
    | cons row rows ih =>
      have first : Sorting.insertFromEnd (fun a b => orderRows [] a b == .lt) row done
          = row :: done := by
        cases done <;> rfl
      rw [Sorting.sortOnto, first, ih, List.reverse_cons, List.append_assoc]
      rfl
  exact onto []

namespace SortKey

def keyed (keys : List SortKey) (row : Row) : List Value × Row := (keys.map (·.valueIn row), row)

def compareKeyed (keys : List SortKey) (a b : List Value × Row) : Ordering :=
  compareAll keys a.1 b.1

variable {keys : List SortKey} {rows : List Row}

theorem compareAll_swap (keys : List SortKey) (as bs : List Value) :
    compareAll keys as bs = (compareAll keys bs as).swap := by
  fun_induction compareAll keys as bs with
  | case1 key keys a as b bs ih => rw [compareAll, Ordering.swap_then, ← compare_swap, ih]
  | case2 keys as bs none =>
    fun_cases compareAll keys bs as with
    | case1 key keys b bs a as => exact (none key keys a as b bs rfl rfl rfl).elim
    | case2 => rfl

instance : Std.OrientedCmp (compareKeyed keys) where
  eq_swap := compareAll_swap _ _ _

theorem transCmp_compareKeyed (h : ∀ key ∈ keys, key.Transitive rows) :
    Std.TransCmp (Sorting.within (compareKeyed keys) (rows.map (keyed keys))) := by
  have asRows : (fun a b => compareKeyed keys (keyed keys a) (keyed keys b)) = orderRows keys :=
    funext₂ fun a b => compareAll_map keys a b
  have : Std.TransCmp
      (Sorting.within (fun a b => compareKeyed keys (keyed keys a) (keyed keys b)) rows) :=
    asRows ▸ transCmp_orderRows h
  exact Sorting.transCmp_map

theorem sort_keyed (keys : List SortKey) (rows : List Row) :
    (Sorting.sort (Sorting.before (compareKeyed keys)) (rows.map (keyed keys))).map (·.2)
      = Sorting.sort (fun a b => orderRows keys a b == .lt) rows := by
  have sorted := Sorting.map_sort (Sorting.before (compareKeyed keys)) (keyed keys) rows
  rw [← sorted, List.map_map]
  simp only [Sorting.before, compareKeyed, keyed, compareAll_map]
  exact List.map_id _

end SortKey

theorem sortRows_eq (keys : List SortKey) (rows : List Row) : sortRows keys rows =
    match missing? keys rows with
    | some name => .error (.error (.row (.columnNotFound name)))
    | none =>
      match Sorting.sort? (Sorting.before (SortKey.compareKeyed keys)) sortCapacity
          (rows.map (SortKey.keyed keys)) with
      | some sorted => .ok (sorted.map (·.2))
      | none => .error .panicked := by
  cases keys with
  | nil =>
    rw [SortKey.missing?_nil, Sorting.sort?_of_trans (SortKey.transCmp_compareKeyed (by simp))]
    dsimp only
    rw [SortKey.sort_keyed, sort_of_keys_nil]
    rfl
  | cons key keys =>
    rw [sortRows, if_neg (by simp), SortKey.keyed_eq]
    cases missing? (key :: keys) rows <;> rfl

theorem sortRows_of_transitive {keys : List SortKey} {rows : List Row}
    (present : missing? keys rows = none) (transitive : ∀ key ∈ keys, key.Transitive rows) :
    sortRows keys rows = .ok (Sorting.sort (fun a b => orderRows keys a b == .lt) rows) := by
  rw [sortRows_eq, present, Sorting.sort?_of_trans (SortKey.transCmp_compareKeyed transitive)]
  dsimp only
  rw [SortKey.sort_keyed]

theorem sortRows_of_short {keys : List SortKey} {rows : List Row}
    (present : missing? keys rows = none) (short : rows.length ≤ 20) :
    sortRows keys rows = .ok (Sorting.sort (fun a b => orderRows keys a b == .lt) rows) := by
  rw [sortRows_eq, present, Sorting.sort?_of_short (by rwa [List.length_map])]
  dsimp only
  rw [SortKey.sort_keyed]

theorem perm_of_sortRows {keys : List SortKey} {rows out : List Row}
    (sorted : sortRows keys rows = .ok out) : out.Perm rows := by
  rw [sortRows_eq] at sorted
  cases found : missing? keys rows with
  | some name =>
    rw [found] at sorted
    cases sorted
  | none =>
    rw [found] at sorted
    dsimp only at sorted
    cases arranged : Sorting.sort? (Sorting.before (SortKey.compareKeyed keys)) sortCapacity
        (rows.map (SortKey.keyed keys)) with
    | none =>
      rw [arranged] at sorted
      cases sorted
    | some l =>
      rw [arranged] at sorted
      cases sorted
      have perm := (Sorting.perm_of_sort? arranged).map (·.2)
      rwa [List.map_map, show (·.2) ∘ SortKey.keyed keys = id from rfl, List.map_id] at perm

/-- A list of rows is what the sort gives if it rearranges the rows into order and keeps tied rows
as they were. -/
theorem eq_sort_iff {keys : List SortKey} {rows l : List Row}
    (h : ∀ key ∈ keys, key.Transitive rows) :
    l = Sorting.sort (fun a b => orderRows keys a b == .lt) rows ↔
      l.Perm rows ∧ l.Pairwise (InOrder keys) ∧
      ∀ row ∈ rows, l.filter (tied keys row) = rows.filter (tied keys row) := by
  have := SortKey.transCmp_orderRows h
  generalize result : Sorting.sort (fun a b => orderRows keys a b == .lt) rows = out
  have perm : out.Perm rows := result ▸ Sorting.perm_sort rows
  have sorted : out.Pairwise fun a b => (orderRows keys a b).isLE = true :=
    result ▸ Sorting.sorted_sort_of_within (List.Subset.refl rows)
  have stable (row : Row) (hrow : row ∈ rows) :
      out.filter (fun b => orderRows keys row b == .eq)
        = rows.filter fun b => orderRows keys row b == .eq :=
    result ▸ Sorting.filter_sort_of_within hrow (List.Subset.refl rows)
  have inOrder : InOrder keys = fun a b => (orderRows keys a b).isLE = true :=
    funext₂ fun _ _ => propext SortKey.isLE_orderRows.symm
  have tied (row : Row) : tied keys row = fun b => orderRows keys row b == .eq :=
    funext (SortKey.tied_eq keys row)
  simp only [inOrder, tied]
  constructor
  · rintro rfl
    exact ⟨perm, sorted, stable⟩
  · rintro ⟨perm', sorted', stable'⟩
    refine Sorting.eq_of_sorted (perm'.trans perm.symm) sorted' sorted fun row hrow => ?_
    have hrow := perm'.subset hrow
    rw [stable' row hrow, stable row hrow]

/-- The stage fails with an error only for the first missing column. Otherwise it loses no row and
makes none, unless it panics, which takes more than twenty rows and values in one of the columns
that are not ordered transitively. Where those in each column are, its output is sorted and stable,
and the only list that is. -/
theorem Stage.eval_sort (keys : List SortKey) (rows : List Row) :
    ((∃ e, (Stage.sort keys).eval rows = .error (.error e)) ↔
      keys ≠ [] ∧ ∃ row ∈ rows, ∃ key ∈ keys, row.contains key.column = false) ∧
    (∀ e, (Stage.sort keys).eval rows = .error (.error e) ↔
      ∃ name, missing? keys rows = some name ∧ e = .row (.columnNotFound name)) ∧
    ((Stage.sort keys).eval rows = .error .panicked →
      missing? keys rows = none ∧ 20 < rows.length ∧ ∃ key ∈ keys, ¬ key.Transitive rows) ∧
    (∀ sorted, (Stage.sort keys).eval rows = .ok sorted → sorted.Perm rows ∧
      ((∀ key ∈ keys, key.Transitive rows) → ∀ l, l = sorted ↔
        l.Perm rows ∧ l.Pairwise (InOrder keys) ∧
        ∀ row ∈ rows, l.filter (tied keys row) = rows.filter (tied keys row))) := by
  have some_missing : (∃ name, missing? keys rows = some name) ↔
      keys ≠ [] ∧ ∃ row ∈ rows, ∃ key ∈ keys, row.contains key.column = false := by
    rw [← Option.ne_none_iff_exists', Ne, SortKey.missing?_eq_none]
    push Not
    simp only [Bool.not_eq_true]
    refine ⟨fun ⟨row, hrow, key, hkey, absent⟩ => ?_, And.right⟩
    exact ⟨List.ne_nil_of_mem hkey, row, hrow, key, hkey, absent⟩
  have errors (e : StageError) : sortRows keys rows = .error (.error e) ↔
      ∃ name, missing? keys rows = some name ∧ e = .row (.columnNotFound name) := by
    rw [sortRows_eq]
    cases missing? keys rows with
    | some name => simp [eq_comm]
    | none =>
      dsimp only
      split <;> simp
  rw [← some_missing, Stage.eval]
  refine ⟨by simp only [errors]; simp, errors, fun panicked => ?_, fun sorted hsorted => ?_⟩
  · cases present : missing? keys rows with
    | some name =>
      rw [(errors _).2 ⟨name, present, rfl⟩] at panicked
      cases panicked
    | none =>
      refine ⟨rfl, Nat.lt_of_not_le fun short => ?_, ?_⟩
      · rw [sortRows_of_short present short] at panicked
        cases panicked
      · by_contra transitive
        push Not at transitive
        rw [sortRows_of_transitive present transitive] at panicked
        cases panicked
  · refine ⟨perm_of_sortRows hsorted, fun transitive l => ?_⟩
    cases present : missing? keys rows with
    | some name =>
      rw [(errors _).2 ⟨name, present, rfl⟩] at hsorted
      cases hsorted
    | none =>
      rw [sortRows_of_transitive present transitive] at hsorted
      cases hsorted
      exact eq_sort_iff transitive

theorem Stage.eval_sort_tied :
    let row (id : Int64) (x y : Value) : Row :=
      ((NameMap.empty.insert "id" (.int id)).insert "x" x).insert "y" y
    let keys : List SortKey := [⟨"x", .descending⟩, ⟨"y", .ascending⟩]
    let first := row 1 (.int 1) (.text "b")
    let second := row 2 (.float ⟨0x3ff0000000000000⟩) (.text "b")
    let third := row 3 (.int 1) .null
    let fourth := row 4 (.text "") (.int 0)
    let rows := [first, second, third, fourth]
    (Stage.sort keys).eval rows = .ok [fourth, third, first, second] ∧
    (∀ l, l = [fourth, third, first, second] ↔
      l.Perm rows ∧ l.Pairwise (InOrder keys) ∧
      ∀ row ∈ rows, l.filter (tied keys row) = rows.filter (tied keys row)) := by
  intro row keys first second third fourth rows
  have result : (Stage.sort keys).eval rows = .ok [fourth, third, first, second] := by
    decide +kernel
  have transitive : ∀ key ∈ keys, key.Transitive rows := by
    unfold SortKey.Transitive
    decide +kernel
  obtain ⟨-, -, -, sorted⟩ := Stage.eval_sort keys rows
  exact ⟨result, (sorted _ result).2 transitive⟩

/-- Each double is equal to both of the integers around it, which differ, and the two ends of a
merge do not meet. -/
theorem Stage.eval_sort_panics :
    let row (v : Value) : Row := NameMap.empty.insert "v" v
    let keys : List SortKey := [⟨"v", .ascending⟩]
    let rows := [row (.int 5), row (.int 4), row (.int 9007199254740993)]
      ++ List.replicate 8 (row (.float ⟨0x4340000000000000⟩)) ++
        List.replicate 11 (row (.int 9007199254740992))
    (Stage.sort keys).eval rows = .error .panicked ∧ missing? keys rows = none := by
  decide +kernel

end RowQuery
