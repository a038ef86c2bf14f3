import RowQuery.Proofs.Pipeline.DistinctRows
import RowQuery.Proofs.Pipeline.PartWise
import RowQuery.Proofs.Pipeline.SortRows

/-!
Sorting before or after rows are left out. A filter and the removal of duplicates leave the rows
that stay in their order, and rows that are the same are tied; since a sort is told by its order and
by the order of tied rows, it does not matter on which side of them it stands.
-/

namespace RowQuery

namespace Row

variable {a b : Row}

theorem same_findEntry {l l' : List (String × Value)} (h : List.Forall₂ SameEntry l l')
    (name : String) :
    ((findEntry name l).getD .null).same ((findEntry name l').getD .null) = true := by
  induction h with
  | nil => rfl
  | cons entry _ ih =>
    rw [findEntry, findEntry, ← entry.1]
    split
    · exact entry.2
    · exact ih

theorem same_valueIn (h : a.same b = true) (key : SortKey) :
    (key.valueIn a).same (key.valueIn b) = true :=
  same_findEntry (same_iff.1 h) key.column

end Row

namespace SortKey

variable {keys : List SortKey} {rows l l' : List Row} {a b : Row}

def arrange (keys : List SortKey) (rows : List Row) : List Row :=
  Sorting.sort (fun a b => orderRows keys a b == .lt) rows

theorem tied_self (keys : List SortKey) (row : Row) : tied keys row row = true :=
  orderRows_eq_eq.1 Std.ReflCmp.compare_self

theorem tied_congr (keys : List SortKey) (row : Row) (h : a.same b = true) :
    tied keys row a = tied keys row b := by
  induction keys with
  | nil => rfl
  | cons key keys ih =>
    have place := Value.sortOrder_congr (Row.same_valueIn h key) (key.valueIn row)
    rw [tied, tied, List.all_cons, List.all_cons, place]
    exact congrArg _ ih

theorem Transitive.subset {key : SortKey} (h : key.Transitive rows) (sub : l ⊆ rows) :
    key.Transitive l :=
  fun a ha b hb c hc => h a (sub ha) b (sub hb) c (sub hc)

theorem perm_of_tied
    (h : ∀ row, row ∈ l ∨ row ∈ l' → l.filter (tied keys row) = l'.filter (tied keys row)) :
    l.Perm l' := by
  refine List.perm_iff_count.2 fun row => ?_
  rcases Decidable.em (row ∈ l ∨ row ∈ l') with inside | outside
  · rw [← List.count_filter (tied_self keys row), h row inside,
      List.count_filter (tied_self keys row)]
  · rw [not_or] at outside
    rw [List.count_eq_zero_of_not_mem outside.1, List.count_eq_zero_of_not_mem outside.2]

theorem arrange_filter (transitive : ∀ key ∈ keys, key.Transitive rows) (p : Row → Bool) :
    (arrange keys rows).filter p = arrange keys (rows.filter p) := by
  obtain ⟨perm, sorted, stable⟩ := (eq_sort_iff transitive).1 (Eq.refl (arrange keys rows))
  have within : ∀ key ∈ keys, key.Transitive (rows.filter p) := fun key hkey =>
    (transitive key hkey).subset (List.filter_subset_self rows)
  refine (eq_sort_iff within).2 ⟨perm.filter p, sorted.sublist List.filter_sublist,
    fun row hrow => ?_⟩
  rw [List.filter_comm, stable row (List.mem_of_mem_filter hrow), List.filter_comm]

theorem arrange_distinctRows (transitive : ∀ key ∈ keys, key.Transitive rows) :
    distinctRows (arrange keys rows) = arrange keys (distinctRows rows) := by
  obtain ⟨perm, sorted, stable⟩ := (eq_sort_iff transitive).1 (Eq.refl (arrange keys rows))
  have within : ∀ key ∈ keys, key.Transitive (distinctRows rows) := fun key hkey =>
    (transitive key hkey).subset (distinctRows_sublist rows).subset
  -- among the rows that are tied with one of them the sort changes nothing, and so the first of the
  -- same are the same rows
  have tiedRows (row : Row) (hrow : row ∈ rows) :
      (distinctRows (arrange keys rows)).filter (tied keys row) = (distinctRows rows).filter
        (tied keys row) := by
    have respects (a b : Row) (same : a.same b = true) := tied_congr keys row same
    rw [← distinctRows_filter respects, stable row hrow, distinctRows_filter respects]
  have source {row : Row} (hrow : row ∈ distinctRows (arrange keys rows) ∨
      row ∈ distinctRows rows) : row ∈ rows :=
    hrow.elim (fun kept => perm.subset ((distinctRows_sublist _).subset kept))
      fun kept => (distinctRows_sublist _).subset kept
  refine (eq_sort_iff within).2 ⟨perm_of_tied fun row hrow => tiedRows row (source hrow), ?_,
    fun row hrow => ?_⟩
  · exact sorted.sublist (distinctRows_sublist _)
  · exact tiedRows row (source (.inr hrow))

end SortKey

theorem filterRows_of_succeeds {keeps : Row → Eval Bool} {rows : List Row}
    (succeeds : ∀ row ∈ rows, ∃ kept, keeps row = .ok kept) :
    filterRows keeps rows = .ok (rows.filter fun row => (keeps row).toOption = some true) := by
  rw [← toOption_eq_some, toOption_filterRows, if_pos]
  intro row hrow
  obtain ⟨kept, told⟩ := succeeds row hrow
  rw [told]
  rfl

theorem runStages_pair {first second : Stage} {rows between l : List Row}
    (h : first.eval rows = .ok between) (h' : second.eval between = .ok l) :
    runStages [first, second] rows = .ok l := by
  rw [runStages, h]
  change (onStage (second.eval between) >>= runStages []) = _
  rw [h']
  rfl

/-- Rows may be sorted before or after they are filtered, and before or after their duplicates are
removed: what comes out is the same list, with the same rows for the same duplicates. This asks for
the columns of the keys in all rows, for values in each of them that are ordered transitively, as
they are reflexively and totally in any case, and for a filter that succeeds on all rows. -/
theorem Stage.sort_commutes {keys : List SortKey} {rows : List Row} {keeps : Row → Eval Bool}
    (present : ∀ row ∈ rows, ∀ key ∈ keys, row.contains key.column = true)
    (transitive : ∀ key ∈ keys, key.Transitive rows)
    (succeeds : ∀ row ∈ rows, ∃ kept, keeps row = .ok kept) :
    (∃ l, runStages [.sort keys, .filter keeps] rows = .ok l ∧
      runStages [.filter keeps, .sort keys] rows = .ok l) ∧
    (∃ l, runStages [.sort keys, .distinct] rows = .ok l ∧
      runStages [.distinct, .sort keys] rows = .ok l) := by
  have sub : SortKey.arrange keys rows ⊆ rows := (Sorting.perm_sort rows).subset
  have sorted {l : List Row} (part : l ⊆ rows) :
      (Stage.sort keys).eval l = .ok (SortKey.arrange keys l) :=
    sortRows_of_transitive (SortKey.missing?_eq_none.2 fun row hrow => present row (part hrow))
      fun key hkey => (transitive key hkey).subset part
  have sortedFirst := sorted (List.Subset.refl rows)
  constructor
  · let p (row : Row) : Bool := (keeps row).toOption = some true
    have filtered {l : List Row} (part : l ⊆ rows) :
        (Stage.filter keeps).eval l = .ok (l.filter p) :=
      congrArg onRows (filterRows_of_succeeds fun row hrow => succeeds row (part hrow))
    refine ⟨(SortKey.arrange keys rows).filter p, runStages_pair sortedFirst (filtered sub), ?_⟩
    rw [SortKey.arrange_filter transitive]
    exact runStages_pair (filtered (List.Subset.refl rows)) (sorted (List.filter_subset_self rows))
  · refine ⟨distinctRows (SortKey.arrange keys rows), runStages_pair sortedFirst rfl, ?_⟩
    rw [SortKey.arrange_distinctRows transitive]
    exact runStages_pair rfl (sorted (distinctRows_sublist rows).subset)

theorem Stage.sort_commutes_zeros :
    let row (id : Int64) (x : Value) : Row := (NameMap.empty.insert "x" x).insert "y" (.int id)
    let positive := row 1 (.float ⟨0⟩)
    let whole := row 1 (.int 0)
    let negative := row 1 (.float ⟨0x8000000000000000⟩)
    let nan := row 2 (.float ⟨0x7ff8000000000000⟩)
    let rows := [whole, negative, nan, positive]
    let keys : List SortKey := [⟨"x", .descending⟩]
    let keeps (row : Row) : Eval Bool := do return (← row.lookup "y").same (.int 1)
    runStages [.sort keys, .filter keeps] rows = .ok [whole, negative, positive] ∧
    runStages [.filter keeps, .sort keys] rows = .ok [whole, negative, positive] ∧
    runStages [.sort keys, .distinct] rows = .ok [nan, whole, negative] ∧
    runStages [.distinct, .sort keys] rows = .ok [nan, whole, negative] := by
  intro row positive whole negative nan rows keys keeps
  have present : ∀ row ∈ rows, ∀ key ∈ keys, row.contains key.column = true := by decide +kernel
  have transitive : ∀ key ∈ keys, key.Transitive rows := by
    unfold SortKey.Transitive
    decide +kernel
  have succeeds : ∀ row ∈ rows, ∃ kept, keeps row = .ok kept := by
    simp only [rows, List.forall_mem_cons]
    exact ⟨⟨true, by decide +kernel⟩, ⟨true, by decide +kernel⟩, ⟨false, by decide +kernel⟩,
      ⟨true, by decide +kernel⟩,
      by simp⟩
  obtain ⟨⟨l, first, last⟩, ⟨l', first', last'⟩⟩ := Stage.sort_commutes present transitive succeeds
  have kept : runStages [.sort keys, .filter keeps] rows = .ok [whole, negative, positive] := by
    decide +kernel
  have apart : runStages [.sort keys, .distinct] rows = .ok [nan, whole, negative] := by
    decide +kernel
  obtain rfl := Except.ok.inj (first.symm.trans kept)
  obtain rfl := Except.ok.inj (first'.symm.trans apart)
  exact ⟨first, last, first', last'⟩

end RowQuery
