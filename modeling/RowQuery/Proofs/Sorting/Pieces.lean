import Mathlib.Data.List.Basic
import RowQuery.Proofs.Sorting.Merging

/-!
The parts of which a sort is made. On a list on which the comparison is transitive, each of them
makes what inserting the elements one by one makes of its part.
-/

namespace RowQuery.Sorting

variable {α : Type} {cmp : α → α → Ordering} {all l l' out : List α} {a b c : α}

abbrev before (cmp : α → α → Ordering) (a b : α) : Bool := cmp a b == .lt

theorem isLE_of_before (h : before cmp a b = true) : (cmp a b).isLE = true := by
  rw [eq_of_beq h]
  rfl

section
variable [Std.OrientedCmp cmp]

theorem before_eq_false : before cmp b a = false ↔ (cmp a b).isLE = true := by
  rw [Ordering.isLE_iff_ne_gt, Std.OrientedCmp.gt_iff_lt]
  exact beq_eq_false_iff_ne

theorem before_eq_true : before cmp b a = true ↔ ¬ (cmp a b).isLE = true := by
  rw [← before_eq_false, Bool.not_eq_false]

theorem before_self (a : α) : before cmp a a = false := before_eq_false.2 Std.ReflCmp.isLE_rfl

variable (cmp) in
theorem sort_pair (w x : α) : ∃ a b, (if before cmp x w then (x, w) else (w, x)) = (a, b) ∧
    sort (before cmp) [w, x] = [a, b] ∧ (cmp a b).isLE = true := by
  rw [sort, sortOnto, sortOnto, insertFromEnd, insertFromEnd]
  cases less : before cmp x w with
  | true => exact ⟨x, w, rfl, rfl, isLE_of_before less⟩
  | false => exact ⟨w, x, rfl, rfl, before_eq_false.1 less⟩

end

section
variable [Std.TransCmp (within cmp all)]

theorem isLE_trans_of_mem (ha : a ∈ all) (hb : b ∈ all) (hc : c ∈ all)
    (first : (cmp a b).isLE = true) (second : (cmp b c).isLE = true) : (cmp a c).isLE = true :=
  @Std.TransCmp.isLE_trans _ (within cmp all) _ ⟨a, ha⟩ ⟨b, hb⟩ ⟨c, hc⟩ first second

theorem transCmp_map {β : Type} {f : α → β} {cmp : β → β → Ordering}
    [Std.TransCmp (within (fun a b => cmp (f a) (f b)) all)] :
    Std.TransCmp (within cmp (all.map f)) where
  eq_swap {a b} := by
    obtain ⟨a, ha, same⟩ := List.mem_map.1 a.2
    obtain ⟨b, hb, same'⟩ := List.mem_map.1 b.2
    have swap := @Std.OrientedCmp.eq_swap _ (within (fun a b => cmp (f a) (f b)) all)
      _ ⟨a, ha⟩ ⟨b, hb⟩
    simp only [within, same, same'] at swap
    exact swap
  isLE_trans {a b c} := by
    obtain ⟨a, ha, same⟩ := List.mem_map.1 a.2
    obtain ⟨b, hb, same'⟩ := List.mem_map.1 b.2
    obtain ⟨c, hc, same''⟩ := List.mem_map.1 c.2
    have trans := @isLE_trans_of_mem _ (fun a b => cmp (f a) (f b)) _ _ _ _ _ ha hb hc
    simp only [same, same', same''] at trans
    exact trans

variable [Std.OrientedCmp cmp]

theorem before_trans (ha : a ∈ all) (hb : b ∈ all) (hc : c ∈ all) (first : before cmp a b = true)
    (second : (cmp b c).isLE = true) : before cmp a c = true :=
  before_eq_true.2 fun back => before_eq_true.1 first (isLE_trans_of_mem hb hc ha second back)

theorem trans_before (ha : a ∈ all) (hb : b ∈ all) (hc : c ∈ all) (first : (cmp a b).isLE = true)
    (second : before cmp b c = true) : before cmp a c = true :=
  before_eq_true.2 fun back => before_eq_true.1 second (isLE_trans_of_mem hc ha hb back first)

theorem not_tied_of_before (ha : a ∈ all) (hb : b ∈ all) (hc : c ∈ all)
    (less : before cmp a b = true) (tied : (cmp c a == .eq) = true) : (cmp c b == .eq) = false := by
  have le : (cmp c a).isLE = true := by
    rw [eq_of_beq tied]
    rfl
  have apart := eq_of_beq (trans_before hc ha hb le less)
  rw [apart]
  rfl

theorem eq_sort (sub : l ⊆ all) (perm : out.Perm l)
    (sorted : out.Pairwise fun a b => (cmp a b).isLE = true)
    (stable : ∀ a ∈ l, out.filter (fun b => cmp a b == .eq) = l.filter fun b => cmp a b == .eq) :
    out = sort (before cmp) l := by
  refine eq_of_sorted (perm.trans (perm_sort l).symm) sorted (sorted_sort_of_within sub)
    fun a ha => ?_
  have ha := perm.subset ha
  rw [stable a ha]
  exact (filter_sort_of_within (sub ha) sub).symm

theorem sort_of_sorted (sub : l ⊆ all) (sorted : l.Pairwise fun a b => (cmp a b).isLE = true) :
    sort (before cmp) l = l :=
  (eq_sort sub (.refl l) sorted fun _ _ => rfl).symm

theorem sort_of_descending (sub : l ⊆ all)
    (descending : l.Pairwise fun a b => before cmp b a = true) :
    sort (before cmp) l = l.reverse := by
  refine (eq_sort sub (List.reverse_perm l)
    (List.pairwise_reverse.2 (descending.imp isLE_of_before)) fun a ha => ?_).symm
  rw [List.filter_reverse]
  -- no two elements are tied
  have alone : (l.filter fun b => cmp a b == .eq).Pairwise fun _ _ => False := by
    refine (descending.filter _).imp_of_mem fun hb hc less => ?_
    obtain ⟨hb, tied⟩ := List.mem_filter.1 hb
    obtain ⟨hc, tied'⟩ := List.mem_filter.1 hc
    rw [not_tied_of_before (sub hc) (sub hb) (sub ha) less tied'] at tied
    cases tied
  generalize l.filter (fun b => cmp a b == .eq) = tied at alone ⊢
  match tied with
  | [] => rfl
  | [_] => rfl
  | _ :: c :: _ => exact ((List.pairwise_cons.1 alone).1 c List.mem_cons_self).elim

theorem sort_partition (sub : l ⊆ all) (p : α → Bool)
    (apart : ∀ a ∈ l, p a = true → ∀ b ∈ l, p b = false → before cmp a b = true) :
    sort (before cmp) l = sort (before cmp) (l.filter p) ++
      sort (before cmp) (l.filter (!p ·)) := by
  have sub₁ : l.filter p ⊆ all := List.Subset.trans (List.filter_subset_self l) sub
  have sub₂ : l.filter (!p ·) ⊆ all := List.Subset.trans (List.filter_subset_self l) sub
  have perm₁ : (sort (before cmp) (l.filter p)).Perm _ := perm_sort _
  have perm₂ : (sort (before cmp) (l.filter (!p ·))).Perm _ := perm_sort _
  refine (eq_sort sub ((perm₁.append perm₂).trans (List.filter_append_perm p l)) ?_
    fun a ha => ?_).symm
  · refine List.pairwise_append.2 ⟨sorted_sort_of_within sub₁, sorted_sort_of_within sub₂,
      fun b hb c hc => ?_⟩
    obtain ⟨hb, first⟩ := List.mem_filter.1 (perm₁.subset hb)
    obtain ⟨hc, last⟩ := List.mem_filter.1 (perm₂.subset hc)
    exact isLE_of_before (apart b hb first c hc (by simpa using last))
  · rw [List.filter_append, filter_sort_of_within (sub ha) sub₁,
      filter_sort_of_within (sub ha) sub₂, List.filter_comm, List.filter_comm _ (!p ·)]
    -- what an element is tied with is on its side
    have side (b : α) (hb : b ∈ l.filter fun b => cmp a b == .eq) : p b = p a := by
      obtain ⟨hb, tied⟩ := List.mem_filter.1 hb
      have tied' := Std.OrientedCmp.eq_comm.1 (eq_of_beq tied)
      cases first : p a <;> cases first' : p b
      · rfl
      · have less := apart b hb first' a ha first
        rw [before, tied'] at less
        cases less
      · have less := apart a ha first b hb first'
        rw [before, eq_of_beq tied] at less
        cases less
      · rfl
    rw [List.filter_congr side, List.filter_congr fun b hb => congrArg (!·) (side b hb)]
    cases p a <;> simp

theorem mergeable_of_sorted (sub : l ⊆ all) (sub' : l' ⊆ all)
    (sorted : l.Pairwise fun a b => (cmp a b).isLE = true)
    (sorted' : l'.Pairwise fun a b => (cmp a b).isLE = true) : Mergeable (before cmp) l l' where
  ofLeft := sorted.imp_of_mem
    fun hx hx' le _ hy less => before_trans (sub' hy) (sub hx) (sub hx') less le
  ofRight := sorted'.imp_of_mem
    fun hy hy' le _ hx less => trans_before (sub' hy) (sub' hy') (sub hx) le less

theorem sorted_merge (sub : l ⊆ all) (sub' : l' ⊆ all)
    (sorted : l.Pairwise fun a b => (cmp a b).isLE = true)
    (sorted' : l'.Pairwise fun a b => (cmp a b).isLE = true) :
    (merge (before cmp) l l').Pairwise fun a b => (cmp a b).isLE = true := by
  induction l, l' using List.merge.induct fun x y => !before cmp y x with
  | case1 l' => rwa [merge_nil_left]
  | case2 l => rwa [merge_nil_right]
  | case3 x l y l' notLess ih =>
    have le : (cmp x y).isLE = true := before_eq_false.1 (by simpa using notLess)
    obtain ⟨head, tail⟩ := List.pairwise_cons.1 sorted
    obtain ⟨hx, hl⟩ := List.cons_subset.1 sub
    rw [merge_cons_cons, before_eq_false.2 le, if_neg Bool.false_ne_true]
    refine List.pairwise_cons.2 ⟨fun z hz => ?_, ih hl sub' tail sorted'⟩
    rcases List.mem_append.1 ((perm_merge _ _).subset hz) with hz | hz
    · exact head z hz
    · rcases List.mem_cons.1 hz with rfl | hz'
      · exact le
      · exact isLE_trans_of_mem hx (sub' List.mem_cons_self) (sub' hz) le
          ((List.pairwise_cons.1 sorted').1 z hz')
  | case4 x l y l' less ih =>
    have less : before cmp y x = true := by simpa using less
    obtain ⟨head, tail⟩ := List.pairwise_cons.1 sorted'
    obtain ⟨hy, hl'⟩ := List.cons_subset.1 sub'
    rw [merge_cons_cons, if_pos less]
    refine List.pairwise_cons.2 ⟨fun z hz => ?_, ih sub hl' sorted tail⟩
    rcases List.mem_append.1 ((perm_merge _ _).subset hz) with hz | hz
    · rcases List.mem_cons.1 hz with rfl | hz'
      · exact isLE_of_before less
      · exact isLE_of_before
          (before_trans hy (sub List.mem_cons_self) (sub hz) less
            ((List.pairwise_cons.1 sorted).1 z hz'))
    · exact head z hz

theorem filter_merge (sub : l ⊆ all) (sub' : l' ⊆ all)
    (sorted : l.Pairwise fun a b => (cmp a b).isLE = true) (ha : a ∈ all) :
    (merge (before cmp) l l').filter (fun b => cmp a b == .eq)
      = (l.filter fun b => cmp a b == .eq) ++ l'.filter fun b => cmp a b == .eq := by
  induction l, l' using List.merge.induct fun x y => !before cmp y x with
  | case1 l' => rw [merge_nil_left, List.filter_nil, List.nil_append]
  | case2 l => rw [merge_nil_right, List.filter_nil, List.append_nil]
  | case3 x l y l' notLess ih =>
    have notLess : before cmp y x = false := by simpa using notLess
    rw [merge_cons_cons, notLess, if_neg Bool.false_ne_true, List.filter_cons, List.filter_cons,
      ih (List.cons_subset.1 sub).2 sub' (List.pairwise_cons.1 sorted).2]
    split <;> rfl
  | case4 x l y l' less ih =>
    have less : before cmp y x = true := by simpa using less
    obtain ⟨hy, hl'⟩ := List.cons_subset.1 sub'
    rw [merge_cons_cons, if_pos less, List.filter_cons, ih sub hl' sorted]
    split
    · next tied =>
      -- what goes past the left list is not tied with any of it
      have none : ((x :: l).filter fun b => cmp a b == .eq) = [] := by
        rw [List.filter_eq_nil_iff]
        intro z hz
        have le : (cmp x z).isLE = true := by
          rcases List.mem_cons.1 hz with rfl | hz
          · exact Std.ReflCmp.isLE_rfl
          · exact (List.pairwise_cons.1 sorted).1 z hz
        have past := before_trans hy (sub List.mem_cons_self) (sub hz) less le
        rw [not_tied_of_before hy (sub hz) ha past tied]
        exact Bool.false_ne_true
      rw [none, List.filter_cons, if_pos tied]
      rfl
    · next apart => rw [List.filter_cons (x := y), if_neg apart]

theorem sort_append (sub : l ⊆ all) (sub' : l' ⊆ all) :
    sort (before cmp) (l ++ l') = merge (before cmp) (sort (before cmp) l)
      (sort (before cmp) l') := by
  have perm : (sort (before cmp) l).Perm l := perm_sort l
  have perm' : (sort (before cmp) l').Perm l' := perm_sort l'
  have inside : sort (before cmp) l ⊆ all := List.Subset.trans perm.subset sub
  have inside' : sort (before cmp) l' ⊆ all := List.Subset.trans perm'.subset sub'
  have whole := List.append_subset.2 ⟨sub, sub'⟩
  refine (eq_sort whole ((perm_merge _ _).trans (perm.append perm'))
    (sorted_merge inside inside' (sorted_sort_of_within sub) (sorted_sort_of_within sub'))
    fun a ha => ?_).symm
  rw [filter_merge inside inside' (sorted_sort_of_within sub) (whole ha), List.filter_append,
    filter_sort_of_within (whole ha) sub, filter_sort_of_within (whole ha) sub']

theorem mergePairs_eq (sub : [a, b] ⊆ all) (sub' : [c, d] ⊆ all) (first : (cmp a b).isLE = true)
    (last : (cmp c d).isLE = true) :
    mergePairs (before cmp) a b c d = merge (before cmp) [a, b] [c, d] := by
  obtain ⟨ha, hb⟩ : a ∈ all ∧ b ∈ all := by simpa using sub
  obtain ⟨hc, hd⟩ : c ∈ all ∧ d ∈ all := by simpa using sub'
  rw [mergePairs, before_eq_false.2 first, before_eq_false.2 last]
  simp only [merge_cons_cons, merge_nil_left, merge_nil_right]
  cases less : before cmp c a <;> cases less' : before cmp d b
  · cases before cmp c b <;> rfl
  · rw [trans_before hc hd hb last less']
    rfl
  · have apart : before cmp d a = false :=
      Bool.eq_false_iff.2 fun h => by simp [before_trans hd ha hb h first] at less'
    rw [apart]
    rfl
  · cases before cmp d a <;> rfl

theorem sortFour_eq {w x y z : α} (sub : [w, x] ⊆ all) (sub' : [y, z] ⊆ all) :
    sortFour (before cmp) w x y z = sort (before cmp) [w, x, y, z] := by
  obtain ⟨a, b, compared, pair, le⟩ := sort_pair cmp w x
  obtain ⟨c, d, compared', pair', le'⟩ := sort_pair cmp y z
  have inside : [a, b] ⊆ all := List.Subset.trans (pair ▸ (perm_sort _).subset) sub
  have inside' : [c, d] ⊆ all := List.Subset.trans (pair' ▸ (perm_sort _).subset) sub'
  rw [show [w, x, y, z] = [w, x] ++ [y, z] from rfl, sort_append sub sub', pair, pair', sortFour,
    compared, compared']
  exact mergePairs_eq inside inside' le le'

end

end RowQuery.Sorting
