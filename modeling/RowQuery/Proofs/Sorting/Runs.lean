import RowQuery.Proofs.Sorting.Quicksort

/-!
The runs of a list and their merges, and with them the whole sort. Whatever it compares by, what
comes out is a rearrangement of the list. Where the comparison is transitive there is no panic, and
a long list is sorted as a short one is, by insertion. A short one is sorted in any case.
-/

namespace RowQuery.Sorting

variable {α : Type} {cmp : α → α → Ordering} {all l l' : List α}

theorem spanRun_append (goesOn : α → α → Bool) (last : α) (l : List α) :
    (spanRun goesOn last l).1 ++ (spanRun goesOn last l).2 = l := by
  fun_induction spanRun goesOn last l with
  | case1 => rfl
  | case2 last x rest goes run rest' found ih =>
    rw [found] at ih
    exact congrArg (x :: ·) ih
  | case3 => rfl

theorem pairwise_spanRun (goesOn : α → α → Bool) {last : α} (sub : last :: l ⊆ all)
    (trans : ∀ a ∈ all, ∀ b ∈ all, ∀ c ∈ all, goesOn a b = true → goesOn b c = true →
      goesOn a c = true) :
    (last :: (spanRun goesOn last l).1).Pairwise (goesOn · ·) := by
  fun_induction spanRun goesOn last l with
  | case1 => exact List.pairwise_singleton _ _
  | case2 last x rest goes run rest' found ih =>
    obtain ⟨hlast, hrest⟩ := List.cons_subset.1 sub
    have split := spanRun_append goesOn x rest
    rw [found] at ih split
    have chain := ih hrest
    refine List.pairwise_cons.2 ⟨List.forall_mem_cons.2 ⟨goes, fun y hy => ?_⟩, chain⟩
    have inside : y ∈ rest := split ▸ List.mem_append_left rest' hy
    exact trans last hlast x (hrest List.mem_cons_self) y
      (hrest (List.mem_cons_of_mem x inside)) goes
      ((List.pairwise_cons.1 chain).1 y hy)
  | case3 => exact List.pairwise_singleton _ _

/-- The elements of a run, whose order they have already if it is sorted. -/
def Run.Holds (cmp : α → α → Ordering) (all : List α) : Run α → List α → Prop
  | ⟨elements, true⟩, l => Arranged cmp all l elements
  | ⟨elements, false⟩, l => l ⊆ all ∧ elements = l

def RunsHold (cmp : α → α → Ordering) (all : List α) : List (Run α) → List α → Prop
  | [], l => l = []
  | run :: rest, l =>
    ∃ front back, l = front ++ back ∧ run.Holds cmp all front ∧ RunsHold cmp all rest back

def StackHolds (cmp : α → α → Ordering) (all : List α) : List (Run α × Nat) → List α → Prop
  | [], l => l = []
  | (run, _) :: before, l =>
    ∃ front back, l = front ++ back ∧ StackHolds cmp all before front ∧ run.Holds cmp all back

section
variable [Std.OrientedCmp cmp]

theorem exists_naturalRun (sub : l ⊆ all) : ∃ front, l = front ++ (naturalRun (before cmp) l).2 ∧
    Arranged cmp all front (naturalRun (before cmp) l).1 := by
  fun_cases naturalRun (before cmp) l with
  | case1 x y rest descends run rest' found =>
    have split := spanRun_append (fun x y => before cmp y x) y rest
    rw [found] at split
    obtain rfl : run ++ rest' = rest := split
    have inside : x :: y :: run ⊆ all := List.Subset.trans (List.subset_append_left _ rest') sub
    refine ⟨x :: y :: run, rfl, inside, List.reverse_perm _,
      fun transitive => (sort_of_descending inside ?_).symm⟩
    have chain := pairwise_spanRun (fun x y => before cmp y x) sub fun a ha b hb c hc less less' =>
      before_trans hc hb ha less' (isLE_of_before less)
    rwa [spanRun, if_pos descends, found] at chain
  | case2 x y rest ascends run rest' found =>
    have split := spanRun_append (fun x y => !before cmp y x) y rest
    rw [found] at split
    obtain rfl : run ++ rest' = rest := split
    have inside : x :: y :: run ⊆ all := List.Subset.trans (List.subset_append_left _ rest') sub
    refine ⟨x :: y :: run, rfl, arranged_of_sorted inside fun transitive => ?_⟩
    have le {a b : α} : (!before cmp b a) = true ↔ (cmp a b).isLE = true := by
      rw [Bool.not_eq_true', before_eq_false]
    have chain := pairwise_spanRun (fun x y => !before cmp y x) sub
        fun a ha b hb c hc notLess notLess' =>
      le.2 (isLE_trans_of_mem ha hb hc (le.1 notLess) (le.1 notLess'))
    rw [spanRun, if_pos (by simpa using ascends), found] at chain
    exact chain.imp le.1
  | case3 l short =>
    refine ⟨l, (List.append_nil l).symm, arranged_of_sorted sub fun _ => ?_⟩
    rcases l with _ | ⟨x, _ | ⟨y, rest⟩⟩
    · exact .nil
    · exact List.pairwise_singleton _ _
    · exact (short x y rest rfl).elim

variable (cmp) in
theorem yields_nextRun (eager : Bool) (goodLength : Nat) (sub : l ⊆ all) :
    Yields cmp all (fun next => ∃ front, l = front ++ next.2 ∧ next.1.Holds cmp all front)
      (nextRun (before cmp) eager goodLength l) := by
  rw [nextRun]
  dsimp only
  split
  · exact exists_naturalRun sub
  split
  · refine (yields_sortShort (List.Subset.trans (List.take_subset shortLength l) sub)).bind
      fun sorted arranged => ?_
    exact ⟨l.take shortLength, (List.take_append_drop shortLength l).symm, arranged⟩
  · exact ⟨l.take goodLength, (List.take_append_drop goodLength l).symm,
      List.Subset.trans (List.take_subset goodLength l) sub, rfl⟩

theorem yields_runs (eager : Bool) (goodLength : Nat) (positive : 0 < goodLength) (sub : l ⊆ all) :
    Yields cmp all (RunsHold cmp all · l) (runs (before cmp) eager goodLength positive l) := by
  fun_induction runs (before cmp) eager goodLength positive l with
  | case1 => exact rfl
  | case2 l nonempty found =>
    have next := yields_nextRun cmp eager goodLength sub
    rwa [found] at next
  | case3 l nonempty run rest found ih =>
    have next := yields_nextRun cmp eager goodLength sub
    rw [found] at next
    obtain ⟨front, rfl, holds⟩ := next
    refine (ih (List.Subset.trans (List.subset_append_right front _) sub)).map fun rs hold => ?_
    exact ⟨front, _, rfl, holds, hold⟩

end

section
variable {quick : List α → Option (List α)} {room : Nat}
  (sorts : ∀ l ⊆ all, Yields cmp all (Arranged cmp all l) (quick l))
include sorts

theorem Run.yields_settle {run : Run α} (holds : run.Holds cmp all l) :
    Yields cmp all (Arranged cmp all l) (run.settle quick) := by
  obtain ⟨elements, sorted⟩ := run
  cases sorted with
  | true => exact holds
  | false =>
    obtain ⟨inside, rfl⟩ := holds
    exact sorts elements inside

variable [Std.OrientedCmp cmp]

theorem yields_mergeNeighbours {left right : Run α} (first : left.Holds cmp all l)
    (last : right.Holds cmp all l') :
    Yields cmp all (·.Holds cmp all (l ++ l'))
      (mergeNeighbours (before cmp) quick room left right) := by
  rw [mergeNeighbours]
  split
  · next together =>
    simp only [Bool.and_eq_true, Bool.not_eq_true'] at together
    obtain ⟨⟨-, unsorted⟩, unsorted'⟩ := together
    obtain ⟨elements, _⟩ := left
    obtain ⟨elements', _⟩ := right
    cases unsorted
    cases unsorted'
    obtain ⟨inside, rfl⟩ := first
    obtain ⟨inside', rfl⟩ := last
    exact ⟨List.append_subset.2 ⟨inside, inside'⟩, rfl⟩
  · refine (Run.yields_settle sorts first).bind fun out arranged => ?_
    refine (Run.yields_settle sorts last).bind fun out' arranged' => ?_
    exact arranged.mergeRuns arranged'

/-- What follows a stack goes on top of it, after the runs with which it meets are merged with
it. -/
theorem yields_collapse {depth : Nat} {stack : List (Run α × Nat)} {last : Run α}
    (stacked : StackHolds cmp all stack l) (holds : last.Holds cmp all l') :
    Yields cmp all (fun kept => StackHolds cmp all ((kept.2, depth) :: kept.1) (l ++ l') ∧
      (depth = 0 → kept.1 = []))
      (collapse (before cmp) quick room depth stack last) := by
  induction stack generalizing l l' last with
  | nil => exact ⟨⟨l, l', rfl, stacked, holds⟩, fun _ => rfl⟩
  | cons top stack ih =>
    obtain ⟨run, meets⟩ := top
    obtain ⟨front, back, rfl, stacked', holds'⟩ := stacked
    rw [collapse]
    split
    · refine (yields_mergeNeighbours sorts holds' holds).bind fun merged holds => ?_
      rw [List.append_assoc]
      exact ih stacked' holds
    · next above => exact ⟨⟨front ++ back, l', rfl, ⟨front, back, rfl, stacked', holds'⟩,
        holds⟩, by omega⟩

theorem yields_mergeAll {scale scanned : Nat} {stack : List (Run α × Nat)} {last : Run α}
    {rest : List (Run α)} (stacked : StackHolds cmp all ((last, 0) :: stack) l)
    (hold : RunsHold cmp all rest l') :
    Yields cmp all (·.Holds cmp all (l ++ l'))
      (mergeAll (before cmp) quick room scale stack last scanned rest) := by
  induction rest generalizing l l' stack last scanned with
  | nil =>
    obtain rfl : l' = [] := hold
    obtain ⟨front, back, rfl, stacked, holds⟩ := stacked
    refine (yields_collapse sorts stacked holds).map
      fun kept ⟨⟨front', back', split, stacked, holds⟩, whole⟩ => ?_
    rw [whole rfl] at stacked
    obtain rfl : front' = [] := stacked
    rwa [List.append_nil, split]
  | cons next rest ih =>
    obtain ⟨front, back, rfl, stacked, holds⟩ := stacked
    obtain ⟨front', back', rfl, holds', hold⟩ := hold
    refine (yields_collapse sorts stacked holds).bind fun kept ⟨stacked, _⟩ => ?_
    rw [← List.append_assoc]
    exact ih ⟨_, _, rfl, stacked, holds'⟩ hold

theorem yields_drift (eager : Bool) (sub : l ⊆ all) :
    Yields cmp all (Arranged cmp all l) (drift (before cmp) quick room eager l) := by
  rw [drift]
  split
  · next nonempty =>
    refine (yields_runs eager _ (goodLength_pos nonempty) sub).bind fun rs hold => ?_
    cases rs with
    | nil =>
      obtain rfl : l = [] := hold
      cases nonempty
    | cons first rest =>
      obtain ⟨front, back, rfl, holds, hold⟩ := hold
      have stacked : StackHolds cmp all [(first, 0)] front := ⟨[], front, rfl, rfl, holds⟩
      exact (yields_mergeAll sorts stacked hold).bind fun run holds => Run.yields_settle sorts holds
  · next short => exact ⟨sub, .refl l, fun _ => (sort_of_length_lt (by omega)).symm⟩

end

variable (cmp) in
theorem yields_sort? [Std.OrientedCmp cmp] (capacity : Nat) (l : List α) :
    Yields cmp l (Arranged cmp l l) (sort? (before cmp) capacity l) := by
  have whole := List.Subset.refl l
  have inserted (l' : List α) (sub : l' ⊆ l) :
      Yields cmp l (Arranged cmp l l') (some (sort (before cmp) l')) :=
    arranged_sort sub
  rw [sort?]
  split
  · exact arranged_sort whole
  dsimp only
  split
  · exact yields_drift inserted true whole
  · refine yields_drift (fun l' sub => ?_) false whole
    exact yields_quicksort (fun l'' sub => yields_drift inserted true sub) _ none sub (by simp)

theorem sort?_of_short {precedes : α → α → Bool} {capacity : Nat} (short : l.length ≤ 20) :
    sort? precedes capacity l = some (sort precedes l) := by
  rw [sort?, if_pos short]

section
variable [Std.OrientedCmp cmp] {capacity : Nat} {out : List α}

theorem perm_of_sort? (sorted : sort? (before cmp) capacity l = some out) : out.Perm l := by
  have result := yields_sort? cmp capacity l
  rw [sorted] at result
  exact result.perm

theorem sort?_of_trans (transitive : Std.TransCmp (within cmp l)) :
    sort? (before cmp) capacity l = some (sort (before cmp) l) := by
  have result := yields_sort? cmp capacity l
  cases sorted : sort? (before cmp) capacity l with
  | none =>
    rw [sorted] at result
    exact (result transitive).elim
  | some out =>
    rw [sorted] at result
    rw [result.eq_sort transitive]

end

end RowQuery.Sorting
