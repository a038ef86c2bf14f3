import RowQuery.Proofs.Sorting.Pieces

/-!
The quicksort, and the sort of a short list by a merge from both ends. What they make of a list is a
rearrangement of it, and the one that inserting its elements one by one makes where the comparison
is transitive. Where it is not they may panic.
-/

namespace RowQuery.Sorting

variable {α β γ : Type} {cmp : α → α → Ordering} {all l l' out out' : List α} {P : β → Prop}
    {Q : γ → Prop}

/-- A panic tells of a comparison that is not transitive. -/
def Yields (cmp : α → α → Ordering) (all : List α) (P : β → Prop) : Option β → Prop
  | some b => P b
  | none => ¬ Std.TransCmp (within cmp all)

namespace Yields

theorem bind {x : Option β} {f : β → Option γ} (h : Yields cmp all P x)
    (next : ∀ b, P b → Yields cmp all Q (f b)) : Yields cmp all Q (x >>= f) := by
  cases x with
  | none => exact h
  | some b => exact next b h

theorem map {x : Option β} {f : β → γ} (h : Yields cmp all P x) (next : ∀ b, P b → Q (f b)) :
    Yields cmp all Q (x.map f) := by
  cases x with
  | none => exact h
  | some b => exact next b h

end Yields

structure Arranged (cmp : α → α → Ordering) (all l out : List α) : Prop where
  inside : l ⊆ all
  perm : out.Perm l
  eq_sort : Std.TransCmp (within cmp all) → out = sort (before cmp) l

theorem arranged_sort (sub : l ⊆ all) : Arranged cmp all l (sort (before cmp) l) :=
  ⟨sub, perm_sort l, fun _ => rfl⟩

theorem sort_of_length_lt (short : l.length < 2) : sort (before cmp) l = l := by
  match l, short with
  | [], _ => rfl
  | [_], _ => rfl

theorem sortOnto_append (sorted l l' : List α) : sortOnto (before cmp) sorted (l ++ l')
    = sortOnto (before cmp) (sortOnto (before cmp) sorted l).reverse l' := by
  induction l generalizing sorted with
  | nil => rw [List.nil_append, sortOnto, List.reverse_reverse]
  | cons x l ih => rw [List.cons_append, sortOnto, ih, sortOnto]

theorem perm_mergePairs (a b c d : α) : (mergePairs (before cmp) a b c d).Perm [a, b, c, d] := by
  classical
  refine List.perm_iff_count.2 fun e => ?_
  rw [mergePairs]
  cases before cmp c a <;> cases before cmp d b <;> dsimp only <;> split <;>
    simp only [List.count_cons, List.count_nil] <;> omega

section
variable [Std.OrientedCmp cmp]

theorem arranged_of_sorted (sub : l ⊆ all)
    (sorted : Std.TransCmp (within cmp all) → l.Pairwise fun a b => (cmp a b).isLE = true) :
    Arranged cmp all l l :=
  ⟨sub, .refl l, fun transitive => (sort_of_sorted sub (sorted transitive)).symm⟩

namespace Arranged

theorem partition (p : α → Bool) (sub : l ⊆ all) (h : Arranged cmp all (l.filter p) out)
    (h' : Arranged cmp all (l.filter (!p ·)) out') (apart : Std.TransCmp (within cmp all) →
      ∀ a ∈ l, p a = true → ∀ b ∈ l, p b = false → before cmp a b = true) : Arranged cmp all l
        (out ++ out') where
  inside := sub
  perm := (h.perm.append h'.perm).trans (List.filter_append_perm p l)
  eq_sort transitive := by
    rw [h.eq_sort transitive, h'.eq_sort transitive]
    exact (sort_partition sub p (apart transitive)).symm

theorem mergeable (h : Arranged cmp all l out) (h' : Arranged cmp all l' out')
    (transitive : Std.TransCmp (within cmp all)) : Mergeable (before cmp) out out' := by
  rw [h.eq_sort transitive, h'.eq_sort transitive]
  exact mergeable_of_sorted (List.Subset.trans (perm_sort l).subset h.inside)
    (List.Subset.trans (perm_sort l').subset h'.inside) (sorted_sort_of_within h.inside)
      (sorted_sort_of_within h'.inside)

theorem merged_eq (h : Arranged cmp all l out) (h' : Arranged cmp all l' out')
    (transitive : Std.TransCmp (within cmp all)) :
    merge (before cmp) out out' = sort (before cmp) (l ++ l') := by
  rw [sort_append h.inside h'.inside, h.eq_sort transitive, h'.eq_sort transitive]

theorem mergeRuns (h : Arranged cmp all l out) (h' : Arranged cmp all l' out') :
    Arranged cmp all (l ++ l') (mergeRuns (before cmp) out out') where
  inside := List.append_subset.2 ⟨h.inside, h'.inside⟩
  perm := (perm_mergeRuns out out').trans (h.perm.append h'.perm)
  eq_sort transitive := (mergeRuns_eq (h.mergeable h' transitive)).trans (h.merged_eq h' transitive)

theorem mergeEnds (h : Arranged cmp all l out) (h' : Arranged cmp all l' out')
    (notLonger : l.length ≤ l'.length) (notMuch : l'.length ≤ l.length + 1) :
    Yields cmp all (Arranged cmp all (l ++ l')) (mergeEnds (before cmp) out out') := by
  have meets (transitive : Std.TransCmp (within cmp all)) :=
    mergeEnds_eq (h.mergeable h' transitive) (by rwa [h.perm.length_eq, h'.perm.length_eq])
      (by rwa [h.perm.length_eq, h'.perm.length_eq])
  cases result : Sorting.mergeEnds (before cmp) out out' with
  | none =>
    intro transitive
    rw [meets transitive] at result
    cases result
  | some merged =>
    refine ⟨List.append_subset.2 ⟨h.inside, h'.inside⟩,
      (perm_mergeEnds result).trans (h.perm.append h'.perm), ?_⟩
    intro transitive
    rw [meets transitive] at result
    cases result
    exact h.merged_eq h' transitive

end Arranged

theorem perm_sortFour (w x y z : α) : (sortFour (before cmp) w x y z).Perm [w, x, y, z] := by
  obtain ⟨a, b, compared, pair, -⟩ := sort_pair cmp w x
  obtain ⟨c, d, compared', pair', -⟩ := sort_pair cmp y z
  rw [sortFour, compared, compared']
  have first : [a, b].Perm [w, x] := pair ▸ perm_sort _
  have last : [c, d].Perm [y, z] := pair' ▸ perm_sort _
  exact (perm_mergePairs a b c d).trans (first.append last)

variable (cmp) in
theorem arranged_sortHalf (four : Bool) (sub : l ⊆ all) :
    Arranged cmp all l (sortHalf (before cmp) four l) := by
  fun_cases sortHalf (before cmp) four l with
  | case1 w x y z rest =>
    refine ⟨sub, (perm_sortOnto _ rest).trans ?_, fun transitive => ?_⟩
    · exact ((List.reverse_perm _).trans (perm_sortFour w x y z)).append_right rest
    · have first : [w, x] ⊆ all := fun a ha => sub (by simp at ha ⊢; tauto)
      have last : [y, z] ⊆ all := fun a ha => sub (by simp at ha ⊢; tauto)
      rw [sortFour_eq first last]
      exact (sortOnto_append [] [w, x, y, z] rest).symm
  | case2 => exact arranged_sort sub
  | case3 => exact arranged_sort sub

theorem yields_sortShort (sub : l ⊆ all) :
    Yields cmp all (Arranged cmp all l) (sortShort (before cmp) l) := by
  rw [sortShort]
  split
  · next short => exact ⟨sub, .refl l, fun _ => (sort_of_length_lt short).symm⟩
  · have first := arranged_sortHalf cmp (8 ≤ l.length)
      (List.Subset.trans (List.take_subset (l.length / 2) l) sub)
    have last := arranged_sortHalf cmp (8 ≤ l.length)
      (List.Subset.trans (List.drop_subset (l.length / 2) l) sub)
    have merged := first.mergeEnds last (by simp; omega) (by simp; omega)
    rwa [List.take_append_drop] at merged

theorem eq_append_of_splitAt {n : Nat} {front behind : List α}
    (cut : l.splitAt n = (front, behind)) : l = front ++ behind := by
  rw [List.splitAt_eq] at cut
  cases cut
  exact (List.take_append_drop n l).symm

theorem filter_around (p : α → Bool) (front : List α) (a : α) (behind : List α) :
    (front ++ a :: behind).filter p
    = if p a then front.filter p ++ a :: behind.filter p
      else front.filter p ++ behind.filter p := by
  rw [List.filter_append, List.filter_cons]
  split <;> rfl

/-- What is not past a pivot that is among the least elements is tied with it. -/
theorem arranged_tied {pivot : α} (sub : l ⊆ all) (hpivot : pivot ∈ all)
    (first : Std.TransCmp (within cmp all) → ∀ x ∈ l, (cmp pivot x).isLE = true) :
    Arranged cmp all (l.filter (!before cmp pivot ·)) (l.filter (!before cmp pivot ·)) := by
  refine arranged_of_sorted (List.Subset.trans (List.filter_subset_self l) sub) fun transitive => ?_
  refine List.pairwise_of_forall_mem_list fun x hx y hy => ?_
  obtain ⟨hx, atMost⟩ := List.mem_filter.1 hx
  have hy := List.mem_of_mem_filter hy
  exact isLE_trans_of_mem (sub hx) hpivot (sub hy) (before_eq_false.1 (by simpa using atMost))
    (first transitive y hy)

theorem yields_quicksort {fallback : List α → Option (List α)}
    (other : ∀ l ⊆ all, Yields cmp all (Arranged cmp all l) (fallback l)) (limit : Nat)
    (floor : Option α) (sub : l ⊆ all)
    (least : ∀ a ∈ floor, a ∈ all ∧ ∀ x ∈ l, (cmp a x).isLE = true) :
    Yields cmp all (Arranged cmp all l) (quicksort (before cmp) fallback limit floor l) := by
  fun_induction quicksort (before cmp) fallback limit floor l with
  | case1 => exact yields_sortShort sub
  | case2 floor l long limit front pivot behind cut less none tied more ih =>
    obtain rfl := eq_append_of_splitAt cut
    have hpivot : pivot ∈ all := sub (by simp)
    have tied_eq : tied = (front ++ pivot :: behind).filter (!before cmp pivot ·) := by
      rw [filter_around, if_pos (by rw [before_self]; rfl)]
    have more_eq : more = (front ++ pivot :: behind).filter (before cmp pivot ·) := by
      rw [filter_around, if_neg (by rw [before_self]; exact Bool.false_ne_true)]
    have less_eq : less = (front ++ pivot :: behind).filter (before cmp · pivot) := by
      rw [filter_around, if_neg (by rw [before_self]; exact Bool.false_ne_true)]
    have first (transitive : Std.TransCmp (within cmp all)) (x : α)
        (hx : x ∈ front ++ pivot :: behind) : (cmp pivot x).isLE = true := by
      rw [Bool.or_eq_true] at none
      rcases none with past | empty
      · obtain ⟨a, ha, le⟩ := (Option.any_eq_true _ _).1 past
        obtain ⟨inside, least⟩ := least a ha
        exact isLE_trans_of_mem hpivot inside (sub hx)
          (before_eq_false.1 (by simpa using le)) (least x hx)
      · rw [List.isEmpty_iff, less_eq, List.filter_eq_nil_iff] at empty
        exact before_eq_false.1 (Bool.eq_false_iff.2 (empty x hx))
    have subMore : more ⊆ all := fun x hx => sub (List.mem_of_mem_filter (more_eq ▸ hx))
    refine (ih subMore (by simp)).bind fun out arranged => ?_
    refine Arranged.partition (!before cmp pivot ·) sub
      (tied_eq ▸ arranged_tied sub hpivot first) ?_ ?_
    · simpa [← more_eq] using arranged
    · intro transitive a ha atMost b hb above
      exact trans_before (sub ha) hpivot (sub hb) (before_eq_false.1 (by simpa using atMost))
        (by simpa using above)
  | case3 floor l long limit front pivot behind cut less some notLess ih₂ ih₁ =>
    obtain rfl := eq_append_of_splitAt cut
    have hpivot : pivot ∈ all := sub (by simp)
    have less_eq : less = (front ++ pivot :: behind).filter (before cmp · pivot) := by
      rw [filter_around, if_neg (by rw [before_self]; exact Bool.false_ne_true)]
    have notLess_eq : notLess = (front ++ pivot :: behind).filter (!before cmp · pivot) := by
      rw [filter_around, if_pos (by rw [before_self]; rfl)]
    have subLess : less ⊆ front ++ pivot :: behind := less_eq ▸ List.filter_subset_self _
    have subNotLess : notLess ⊆ front ++ pivot :: behind := notLess_eq ▸ List.filter_subset_self _
    have floorLess (a : α) (ha : a ∈ floor) : a ∈ all ∧ ∀ x ∈ less, (cmp a x).isLE = true :=
      (least a ha).imp id fun least x hx => least x (subLess hx)
    have floorNotLess (a : α) (ha : a ∈ Option.some pivot) :
        a ∈ all ∧ ∀ x ∈ notLess, (cmp a x).isLE = true := by
      cases ha
      refine ⟨hpivot, fun x hx => before_eq_false.1 ?_⟩
      rw [notLess_eq] at hx
      simpa using (List.mem_filter.1 hx).2
    refine (ih₂ (List.Subset.trans subLess sub) floorLess).bind fun left arrangedLeft => ?_
    refine (ih₁ (List.Subset.trans subNotLess sub) floorNotLess).bind fun right arrangedRight => ?_
    refine Arranged.partition (before cmp · pivot) sub (less_eq ▸ arrangedLeft)
      (notLess_eq ▸ arrangedRight) ?_
    intro transitive a ha less b hb notLess
    exact before_trans (sub ha) hpivot (sub hb) less (before_eq_false.1 notLess)
  | case4 => exact other _ sub

end

end RowQuery.Sorting
