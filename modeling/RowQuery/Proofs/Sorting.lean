import RowQuery.Sorting

/-!
The sort is a rearrangement of its input, whatever it compares by. Where it compares by a total
preorder its output is in order and stable, and there is no other list that is.
-/

namespace RowQuery.Sorting

section
variable {α β : Type} {precedes : α → α → Bool}

theorem perm_insertFromEnd (x : α) (l : List α) : (insertFromEnd precedes x l).Perm (x :: l) := by
  induction l with
  | nil => exact .refl _
  | cons y rest ih =>
    rw [insertFromEnd]
    split
    · exact (ih.cons y).trans (.swap x y rest)
    · exact .refl _

theorem perm_sortOnto (sorted l : List α) : (sortOnto precedes sorted l).Perm (sorted ++ l) := by
  induction l generalizing sorted with
  | nil =>
    rw [sortOnto, List.append_nil]
    exact List.reverse_perm sorted
  | cons x rest ih =>
    have inserted : (insertFromEnd precedes x sorted ++ rest).Perm (x :: sorted ++ rest) :=
      (perm_insertFromEnd x sorted).append_right rest
    exact ((ih _).trans inserted).trans List.perm_middle.symm

theorem perm_sort (l : List α) : (sort precedes l).Perm l := perm_sortOnto [] l

theorem map_insertFromEnd (p : β → β → Bool) (f : α → β) (x : α) (l : List α) :
    (insertFromEnd (fun a b => p (f a) (f b)) x l).map f = insertFromEnd p (f x) (l.map f) := by
  induction l with
  | nil => rfl
  | cons y rest ih =>
    rw [List.map_cons, insertFromEnd, insertFromEnd]
    split
    · rw [List.map_cons, ih]
    · rfl

theorem map_sort (p : β → β → Bool) (f : α → β) (l : List α) :
    (sort (fun a b => p (f a) (f b)) l).map f = sort p (l.map f) := by
  have onto (sorted : List α) :
      (sortOnto (fun a b => p (f a) (f b)) sorted l).map f
        = sortOnto p (sorted.map f) (l.map f) := by
    induction l generalizing sorted with
    | nil =>
      rw [sortOnto, List.map_reverse]
      rfl
    | cons x rest ih => rw [sortOnto, ih, map_insertFromEnd, List.map_cons, sortOnto]
  exact onto []

end

section
variable {α : Type} {cmp : α → α → Ordering} {l l' : List α}

/-- A list in order has no other rearrangement that is in order and keeps equal elements as they
are. -/
theorem eq_of_sorted [Std.OrientedCmp cmp] (perm : l.Perm l')
    (sorted : l.Pairwise fun a b => (cmp a b).isLE = true)
    (sorted' : l'.Pairwise fun a b => (cmp a b).isLE = true)
    (stable : ∀ a ∈ l, l.filter (fun b => cmp a b == .eq) = l'.filter (fun b => cmp a b == .eq)) :
    l = l' := by
  induction l generalizing l' with
  | nil => exact perm.nil_eq
  | cons a l ih =>
    cases l' with
    | nil => exact absurd perm.symm.nil_eq (by simp)
    | cons b l' =>
      obtain ⟨head, tail⟩ := List.pairwise_cons.1 sorted
      obtain ⟨head', tail'⟩ := List.pairwise_cons.1 sorted'
      -- the heads come before each other, so they are tied, and the first of those tied with `a` is
      -- the same in both
      have forth : (cmp a b).isLE = true := by
        rcases List.mem_cons.1 (perm.symm.subset List.mem_cons_self) with rfl | inside
        · exact Std.ReflCmp.isLE_rfl
        · exact head b inside
      have back : (cmp b a).isLE = true := by
        rcases List.mem_cons.1 (perm.subset List.mem_cons_self) with rfl | inside
        · exact Std.ReflCmp.isLE_rfl
        · exact head' a inside
      have tied : cmp a b = .eq := Std.OrientedCmp.isLE_antisymm forth back
      have first := stable a List.mem_cons_self
      rw [List.filter_cons, List.filter_cons, if_pos (beq_iff_eq.2 Std.ReflCmp.compare_self),
        if_pos (beq_iff_eq.2 tied)] at first
      obtain rfl := (List.cons.inj first).1
      congr 1
      refine ih (List.perm_cons a |>.1 perm) tail tail' fun c hc => ?_
      have same := stable c (List.mem_cons_of_mem _ hc)
      rw [List.filter_cons, List.filter_cons] at same
      split at same
      · exact (List.cons.inj same).2
      · exact same

variable [Std.TransCmp cmp]

-- lists are given from their ends here, as the sorted part is
theorem sorted_insertFromEnd (x : α) (sorted : l.Pairwise fun a b => (cmp b a).isLE = true) :
    (insertFromEnd (fun a b => cmp a b == .lt) x l).Pairwise fun a b => (cmp b a).isLE = true := by
  induction l with
  | nil => exact List.pairwise_singleton _ _
  | cons y rest ih =>
    obtain ⟨head, tail⟩ := List.pairwise_cons.1 sorted
    rw [insertFromEnd]
    split
    · next less =>
      refine List.pairwise_cons.2 ⟨fun z hz => ?_, ih tail⟩
      rcases List.mem_cons.1 ((perm_insertFromEnd x rest).subset hz) with rfl | hz
      · rw [eq_of_beq less]
        rfl
      · exact head z hz
    · next not_less =>
      have last : (cmp y x).isLE = true := by
        rw [Ordering.isLE_iff_ne_gt, Std.OrientedCmp.gt_iff_lt]
        exact fun less => not_less (beq_iff_eq.2 less)
      refine List.pairwise_cons.2 ⟨fun z hz => ?_, sorted⟩
      rcases List.mem_cons.1 hz with rfl | hz
      · exact last
      · exact Std.TransCmp.isLE_trans (head z hz) last

theorem sorted_sort (l : List α) :
    (sort (fun a b => cmp a b == .lt) l).Pairwise fun a b => (cmp a b).isLE = true := by
  have onto (done : List α) (h : done.Pairwise fun a b => (cmp b a).isLE = true) :
      (sortOnto (fun a b => cmp a b == .lt) done l).Pairwise fun a b => (cmp a b).isLE = true := by
    induction l generalizing done with
    | nil => exact List.pairwise_reverse.2 h
    | cons x rest ih => exact ih _ (sorted_insertFromEnd x h)
  exact onto [] .nil

theorem filter_insertFromEnd (a x : α) (l : List α) :
    (insertFromEnd (fun a b => cmp a b == .lt) x l).filter (fun b => cmp a b == .eq)
      = (x :: l).filter fun b => cmp a b == .eq := by
  induction l with
  | nil => rfl
  | cons y rest ih =>
    rw [insertFromEnd]
    split
    · next less =>
      rw [List.filter_cons, ih]
      simp only [List.filter_cons]
      split
      · next tied =>
        have apart : ¬ (cmp a x == .eq) = true := by
          intro tied'
          have equal := Std.TransCmp.eq_trans (Std.OrientedCmp.eq_comm.1 (eq_of_beq tied'))
            (eq_of_beq tied)
          rw [eq_of_beq less] at equal
          cases equal
        rw [if_neg apart, if_neg apart]
      · rfl
    · rfl

theorem filter_sort (a : α) (l : List α) :
    (sort (fun a b => cmp a b == .lt) l).filter (fun b => cmp a b == .eq)
      = l.filter fun b => cmp a b == .eq := by
  have onto (done : List α) :
      (sortOnto (fun a b => cmp a b == .lt) done l).filter (fun b => cmp a b == .eq)
      = (done.filter fun b => cmp a b == .eq).reverse ++ l.filter fun b => cmp a b == .eq := by
    induction l generalizing done with
    | nil => rw [sortOnto, List.filter_reverse, List.filter_nil, List.append_nil]
    | cons x rest ih =>
      rw [sortOnto, ih, filter_insertFromEnd, List.filter_cons, List.filter_cons]
      split
      · rw [List.reverse_cons, List.append_assoc]
        rfl
      · rfl
  exact onto []

end

section
variable {α : Type} {cmp : α → α → Ordering} {all l : List α}

/-- What a list is compared by, on its own elements: it may be transitive there and not
elsewhere. -/
def within (cmp : α → α → Ordering) (all : List α) (a b : {x // x ∈ all}) : Ordering := cmp a b

theorem sort_eq_attachWith (sub : l ⊆ all) : sort (fun a b => cmp a b == .lt) l =
    (sort (fun a b => within cmp all a b == .lt) (l.attachWith (· ∈ all) fun _ h => sub h)).map
      (·.val) := by
  have mapped := map_sort (fun a b => cmp a b == .lt) Subtype.val
    (l.attachWith (· ∈ all) fun _ h => sub h)
  rw [List.attachWith_map_subtype_val] at mapped
  exact mapped.symm

variable [Std.TransCmp (within cmp all)]

theorem sorted_sort_of_within (sub : l ⊆ all) :
    (sort (fun a b => cmp a b == .lt) l).Pairwise fun a b => (cmp a b).isLE = true := by
  have inside := @sorted_sort _ (within cmp all) _ (l.attachWith (· ∈ all) fun _ h => sub h)
  rw [sort_eq_attachWith sub]
  exact List.pairwise_map.2 inside

theorem filter_sort_of_within {a : α} (ha : a ∈ all) (sub : l ⊆ all) :
    (sort (fun a b => cmp a b == .lt) l).filter (fun b => cmp a b == .eq)
      = l.filter fun b => cmp a b == .eq := by
  let inside := l.attachWith (· ∈ all) fun _ h => sub h
  have whole : inside.map (·.val) = l := List.attachWith_map_subtype_val _
  have stable : (sort (fun a b => within cmp all a b == .lt) inside).filter
    (fun b => within cmp all ⟨a, ha⟩ b == .eq)
      = inside.filter fun b => within cmp all ⟨a, ha⟩ b == .eq := filter_sort _ _
  conv => rhs; rw [← whole, List.filter_map]
  rw [sort_eq_attachWith sub, List.filter_map]
  exact congrArg _ stable

end

end RowQuery.Sorting
