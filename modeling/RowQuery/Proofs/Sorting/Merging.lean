import RowQuery.Proofs.Sorting

/-!
The merges of two lists, from the front, from the back and from both ends. They rearrange the two
lists, whatever they compare by. Of lists that are in order, by a comparison that is transitive on
them, they all make the same list.
-/

namespace RowQuery.Sorting

section
variable {α : Type} {precedes : α → α → Bool} {left right : List α} {x y : α}

theorem perm_merge (left right : List α) : (merge precedes left right).Perm (left ++ right) :=
  List.merge_perm_append _

theorem perm_mergeFromEnd (left right : List α) :
    (mergeFromEnd precedes left right).Perm (left ++ right) := by
  have merged : (mergeFromEnd precedes left right).Perm (right.reverse ++ left.reverse) :=
    (List.reverse_perm _).trans (List.merge_perm_append _)
  rw [← List.reverse_append] at merged
  exact merged.trans (List.reverse_perm _)

theorem perm_mergeRuns (left right : List α) :
    (mergeRuns precedes left right).Perm (left ++ right) := by
  rw [mergeRuns]
  split
  · exact perm_merge left right
  · exact perm_mergeFromEnd left right

theorem merge_cons_cons (x y : α) (left right : List α) : merge precedes (x :: left) (y :: right) =
    if precedes y x then y :: merge precedes (x :: left) right
      else x :: merge precedes left (y :: right) := by
  rw [merge, List.cons_merge_cons]
  cases precedes y x <;> rfl

theorem length_merge (left right : List α) :
    (merge precedes left right).length = left.length + right.length :=
  List.length_merge _ _ _

theorem mergeFirst_fst {n : Nat} (enoughLeft : n ≤ left.length) (enoughRight : n ≤ right.length) :
    (mergeFirst precedes n left right).1 = (merge precedes left right).take n := by
  fun_induction mergeFirst precedes n left right with
  | case1 n x left y right less merged rest found ih =>
    rw [found] at ih
    rw [merge_cons_cons, if_pos less, List.take_succ_cons,
      ← ih (by omega) (Nat.le_of_succ_le_succ enoughRight)]
  | case2 n x left y right notLess merged rest found ih =>
    rw [found] at ih
    rw [merge_cons_cons, if_neg notLess, List.take_succ_cons,
      ← ih (Nat.le_of_succ_le_succ enoughLeft) (by omega)]
  | case3 n left right ends =>
    match n, left, right with
    | 0, _, _ => rw [List.take_zero]
    | n + 1, [], _ => simp at enoughLeft
    | n + 1, _, [] => simp at enoughRight
    | n + 1, x :: left, y :: right => exact (ends n x left y right rfl rfl rfl).elim

/-- What precedes an element of the left list precedes those behind it, and what an element of the
right list precedes, those before it precede too. -/
structure Mergeable (precedes : α → α → Bool) (left right : List α) : Prop where
  ofLeft : left.Pairwise fun x x' => ∀ y ∈ right, precedes y x = true → precedes y x' = true
  ofRight : right.Pairwise fun y y' => ∀ x ∈ left, precedes y' x = true → precedes y x = true

namespace Mergeable

theorem reverse (h : Mergeable precedes left right) :
    Mergeable (fun y x => precedes x y) right.reverse left.reverse where
  ofLeft := List.pairwise_reverse.2
    (h.ofRight.imp fun behind x hx => behind x (List.mem_reverse.1 hx))
  ofRight := List.pairwise_reverse.2
    (h.ofLeft.imp fun behind y hy => behind y (List.mem_reverse.1 hy))

theorem of_cons_left (h : Mergeable precedes (x :: left) right) :
    Mergeable precedes left right where
  ofLeft := (List.pairwise_cons.1 h.ofLeft).2
  ofRight := h.ofRight.imp fun before x hx => before x (List.mem_cons_of_mem _ hx)

theorem of_cons_right (h : Mergeable precedes left (y :: right)) :
    Mergeable precedes left right where
  ofLeft := h.ofLeft.imp fun behind y hy => behind y (List.mem_cons_of_mem _ hy)
  ofRight := (List.pairwise_cons.1 h.ofRight).2

theorem less (h : Mergeable precedes (x :: left) (y :: right)) (first : precedes y x = true) :
    ∀ x' ∈ x :: left, precedes y x' = true :=
  List.forall_mem_cons.2
    ⟨first, fun x' hx' => (List.pairwise_cons.1 h.ofLeft).1 x' hx' y List.mem_cons_self first⟩

theorem not_less (h : Mergeable precedes (x :: left) (y :: right)) (first : precedes y x = false) :
    ∀ y' ∈ y :: right, precedes y' x = false := by
  refine List.forall_mem_cons.2 ⟨first, fun y' hy' => Bool.eq_false_iff.2 fun before => ?_⟩
  have := (List.pairwise_cons.1 h.ofRight).1 y' hy' x List.mem_cons_self before
  rw [first] at this
  cases this

end Mergeable

theorem exists_mergeFirst (precedes : α → α → Bool) (n : Nat) (left right : List α) :
    ∃ merged fromLeft fromRight left' right',
      mergeFirst precedes n left right = (merged, left', right') ∧
      left = fromLeft ++ left' ∧ right = fromRight ++ right' ∧ merged.Perm (fromLeft ++ fromRight) ∧
      (Mergeable precedes left right → (∀ y ∈ fromRight, ∀ x ∈ left', precedes y x = true) ∧
        ∀ x ∈ fromLeft, ∀ y ∈ right', precedes y x = false) := by
  fun_induction mergeFirst precedes n left right with
  | case1 n x left y right less merged rest found ih =>
    obtain ⟨_, fromLeft, fromRight, left', right', same, splitLeft, splitRight, perm, apart⟩ := ih
    cases found.symm.trans same
    refine ⟨_, fromLeft, y :: fromRight, left', right', rfl, splitLeft, by rw [splitRight]; rfl,
      (perm.cons y).trans List.perm_middle.symm, fun h => ?_⟩
    have first : ∀ x' ∈ left', precedes y x' = true := fun x' hx' =>
      h.less less x' (splitLeft ▸ List.mem_append_right fromLeft hx')
    obtain ⟨behind, before⟩ := apart h.of_cons_right
    exact ⟨List.forall_mem_cons.2 ⟨first, behind⟩, before⟩
  | case2 n x left y right notLess merged rest found ih =>
    obtain ⟨_, fromLeft, fromRight, left', right', same, splitLeft, splitRight, perm, apart⟩ := ih
    cases found.symm.trans same
    refine ⟨_, x :: fromLeft, fromRight, left', right', rfl, by rw [splitLeft]; rfl, splitRight,
      perm.cons x, fun h => ?_⟩
    have first : ∀ y' ∈ right', precedes y' x = false := fun y' hy' =>
      h.not_less (Bool.eq_false_iff.2 notLess) y' (splitRight ▸ List.mem_append_right fromRight hy')
    obtain ⟨behind, before⟩ := apart h.of_cons_left
    exact ⟨behind, List.forall_mem_cons.2 ⟨first, before⟩⟩
  | case3 => exact ⟨[], [], [], _, _, rfl, rfl, rfl, .refl _, fun _ => ⟨by simp, by simp⟩⟩

/-! From the end -/

theorem merge_nil_left (right : List α) : merge precedes [] right = right := List.nil_merge _

theorem merge_nil_right (left : List α) : merge precedes left [] = left := List.merge_right _

theorem merge_of_not_less (h : ∀ x ∈ left, ∀ y ∈ right, precedes y x = false) :
    merge precedes left right = left ++ right :=
  List.merge_of_le fun x y hx hy => by rw [h x hx y hy]; rfl

theorem merge_concat_right (last : ∀ x ∈ left, precedes y x = false) :
    merge precedes left (right ++ [y]) = merge precedes left right ++ [y] := by
  induction left, right using List.merge.induct fun x y => !precedes y x with
  | case1 right => rw [merge_nil_left, merge_nil_left]
  | case2 left =>
    rw [merge_nil_right, List.nil_append]
    exact merge_of_not_less fun x hx z hz => List.mem_singleton.1 hz ▸ last x hx
  | case3 x left z right notLess ih =>
    have notLess : precedes z x = false := by simpa using notLess
    rw [List.cons_append, merge_cons_cons, merge_cons_cons, notLess, if_neg Bool.false_ne_true,
      if_neg Bool.false_ne_true, ← List.cons_append,
      ih fun x' hx' => last x' (List.mem_cons_of_mem x hx')]
    rfl
  | case4 x left z right less ih =>
    have less : precedes z x = true := by simpa using less
    rw [List.cons_append, merge_cons_cons, merge_cons_cons, less, if_pos rfl, if_pos rfl, ih last]
    rfl

theorem merge_concat_left (last : ∀ y ∈ right, precedes y x = true) :
    merge precedes (left ++ [x]) right = merge precedes left right ++ [x] := by
  induction left, right using List.merge.induct fun x y => !precedes y x with
  | case1 right =>
    rw [merge_nil_left, List.nil_append]
    induction right with
    | nil => exact merge_nil_right [x]
    | cons y right ih =>
      obtain ⟨first, rest⟩ := List.forall_mem_cons.1 last
      rw [merge_cons_cons, if_pos first, ih rest]
      rfl
  | case2 left => rw [merge_nil_right, merge_nil_right]
  | case3 z left y right notLess ih =>
    have notLess : precedes y z = false := by simpa using notLess
    rw [List.cons_append, merge_cons_cons, merge_cons_cons, notLess, if_neg Bool.false_ne_true,
      if_neg Bool.false_ne_true, ih last]
    rfl
  | case4 z left y right less ih =>
    have less : precedes y z = true := by simpa using less
    rw [List.cons_append, merge_cons_cons, merge_cons_cons, less, if_pos rfl, if_pos rfl,
      ← List.cons_append, ih fun y' hy' => last y' (List.mem_cons_of_mem y hy')]
    rfl

theorem mergeFromEnd_eq (h : Mergeable precedes left right) :
    mergeFromEnd precedes left right = merge precedes left right := by
  have reversed (left right : List α) (h : Mergeable (fun y x => precedes x y) right left) :
      (right.merge left fun y x => !precedes y x).reverse
        = merge precedes left.reverse right.reverse := by
    induction right, left using List.merge.induct fun y x => !precedes y x with
    | case1 left => rw [List.nil_merge, List.reverse_nil, merge_nil_right]
    | case2 right => rw [List.merge_right, List.reverse_nil, merge_nil_left]
    | case3 y right x left notLess ih =>
      have last := h.not_less (by simpa using notLess)
      rw [List.cons_merge_cons, if_pos notLess, List.reverse_cons, ih h.of_cons_left,
        ← merge_concat_right fun x' hx' => last x' (List.mem_reverse.1 hx'), ← List.reverse_cons]
    | case4 y right x left less ih =>
      have last := h.less (by simpa using less)
      rw [List.cons_merge_cons, if_neg less, List.reverse_cons, ih h.of_cons_right,
        ← merge_concat_left fun y' hy' => last y' (List.mem_reverse.1 hy'), ← List.reverse_cons]
  have whole := reversed left.reverse right.reverse h.reverse
  rw [List.reverse_reverse, List.reverse_reverse] at whole
  exact whole

theorem mergeRuns_eq (h : Mergeable precedes left right) :
    mergeRuns precedes left right = merge precedes left right := by
  rw [mergeRuns, mergeFromEnd_eq h, ite_self]

/-! From both ends -/

theorem perm_of_meeting {whole front tail back rest : List α} {n : Nat}
    (split : whole = front ++ tail) (split' : whole.reverse = back ++ rest)
    (met : tail.length + rest.length = whole.length + n) :
    (front ++ (tail.take n ++ back)).Perm whole := by
  have whole' : whole = rest.reverse ++ back.reverse := by
    rw [← List.reverse_append, ← split', List.reverse_reverse]
  have length := congrArg List.length split'
  have same : (front ++ tail.take n) ++ tail.drop n = rest.reverse ++ back.reverse := by
    rw [List.append_assoc, List.take_append_drop, ← split, whole']
  have equal : tail.drop n = back.reverse := by
    refine List.append_inj_right' same ?_
    simp only [List.length_append, List.length_reverse, List.length_drop] at length ⊢
    omega
  rw [split]
  conv => rhs; rw [← List.take_append_drop n tail, equal]
  exact ((List.reverse_perm back).symm.append_left _).append_left front

theorem perm_mergeEnds {merged : List α} (met : mergeEnds precedes left right = some merged) :
    merged.Perm (left ++ right) := by
  obtain ⟨front, frontLeft, frontRight, left₁, right₁, hfront, splitLeft, splitRight,
      permFront, -⟩ :=
    exists_mergeFirst precedes ((left.length + right.length) / 2) left right
  obtain ⟨back, backRight, backLeft, right₂, left₂, hback, splitRight', splitLeft', permBack, -⟩ :=
    exists_mergeFirst (fun y x => precedes x y)
      ((left.length + right.length) / 2) right.reverse left.reverse
  rw [mergeEnds] at met
  simp only [hfront, hback, Option.ite_none_right_eq_some, Option.some.injEq] at met
  obtain ⟨⟨metLeft, metRight⟩, rfl⟩ := met
  have ofLeft := perm_of_meeting splitLeft splitLeft' metLeft
  have ofRight := perm_of_meeting splitRight splitRight' metRight
  have ofBack : back.reverse.Perm (backLeft ++ backRight) :=
    (List.reverse_perm back).trans (permBack.trans List.perm_append_comm)
  refine ((permFront.append_right _).append ofBack).trans
    (List.Perm.trans ?_ (ofLeft.append ofRight))
  classical
  exact List.perm_iff_count.2 fun a => by
    simp only [List.count_append]
    omega

theorem exists_mem_of_longer {a b c d : List α} (same : a ++ b = c ++ d)
    (longer : c.length < a.length) : ∃ x, x ∈ a ∧ x ∈ d := by
  rcases List.append_eq_append_iff.1 same with ⟨e, rfl, -⟩ | ⟨e, rfl, rfl⟩
  · rw [List.length_append] at longer
    omega
  · cases e with
    | nil => simp at longer
    | cons x e => exact ⟨x, by simp, by simp⟩

/-- Neither end goes past the place where the other one stops, in neither list. -/
theorem not_past {frontLeft left₁ backLeft left₂ frontRight right₁ backRight right₂ : List α}
    (splitLeft : left = frontLeft ++ left₁) (splitLeft' : left.reverse = backLeft ++ left₂)
    (splitRight : right = frontRight ++ right₁) (splitRight' : right.reverse = backRight ++ right₂)
    (apart : (∀ y ∈ frontRight, ∀ x ∈ left₁, precedes y x = true) ∧
      ∀ x ∈ frontLeft, ∀ y ∈ right₁, precedes y x = false)
    (apart' : (∀ x ∈ backLeft, ∀ y ∈ right₂, precedes y x = true) ∧
      ∀ y ∈ backRight, ∀ x ∈ left₂, precedes y x = false)
    (half : frontLeft.length + frontRight.length ≤ left₂.length + right₂.length) :
    frontLeft.length ≤ left₂.length ∧ frontRight.length ≤ right₂.length := by
  have sameLeft : frontLeft ++ left₁ = left₂.reverse ++ backLeft.reverse := by
    rw [← splitLeft, ← List.reverse_append, ← splitLeft', List.reverse_reverse]
  have sameRight : frontRight ++ right₁ = right₂.reverse ++ backRight.reverse := by
    rw [← splitRight, ← List.reverse_append, ← splitRight', List.reverse_reverse]
  constructor
  · refine Nat.le_of_not_lt fun past => ?_
    obtain ⟨x, hx, hx'⟩ := exists_mem_of_longer sameLeft (by rw [List.length_reverse]; omega)
    obtain ⟨y, hy, hy'⟩ := exists_mem_of_longer sameRight.symm (by rw [List.length_reverse]; omega)
    have before := apart'.1 x (List.mem_reverse.1 hx') y (List.mem_reverse.1 hy)
    rw [apart.2 x hx y hy'] at before
    cases before
  · refine Nat.le_of_not_lt fun past => ?_
    obtain ⟨y, hy, hy'⟩ := exists_mem_of_longer sameRight (by rw [List.length_reverse]; omega)
    obtain ⟨x, hx, hx'⟩ := exists_mem_of_longer sameLeft.symm (by rw [List.length_reverse]; omega)
    have before := apart.1 y hy x hx'
    rw [apart'.2 y (List.mem_reverse.1 hy') x (List.mem_reverse.1 hx)] at before
    cases before

theorem take_append_take_drop (l : List α) {m n : Nat} (le : m ≤ n) :
    l.take m ++ (l.drop m).take (n - m) ++ l.drop n = l := by
  have behind : l.drop n = (l.drop m).drop (n - m) := by
    rw [List.drop_drop, Nat.add_sub_cancel' le]
  rw [behind, List.append_assoc, List.take_append_drop, List.take_append_drop]

theorem eq_of_perm_of_short {l l' : List α} (perm : l.Perm l') (short : l.length ≤ 1) :
    l = l' := by
  match l with
  | [] => exact perm.nil_eq
  | [x] => exact perm.singleton_eq
  | _ :: _ :: _ => simp at short

/-- The two ends take the first and the last elements of the merge, and meet but for one element. -/
theorem exists_middle (h : Mergeable precedes left right) (notLonger : left.length ≤ right.length)
    (notMuch : right.length ≤ left.length + 1) :
    ∃ middle : List α, middle.length ≤ 1 ∧
      mergeEnds precedes left right
        = some ((merge precedes left right).take left.length ++ middle
          ++ (merge precedes left right).drop right.length) := by
  obtain ⟨front, frontLeft, frontRight, left₁, right₁, hfront, splitLeft, splitRight,
      permFront, apart⟩ :=
    exists_mergeFirst precedes ((left.length + right.length) / 2) left right
  obtain ⟨back, backRight, backLeft, right₂, left₂, hback, splitRight', splitLeft',
      permBack, apart'⟩ :=
    exists_mergeFirst (fun y x => precedes x y)
      ((left.length + right.length) / 2) right.reverse left.reverse
  have half : (left.length + right.length) / 2 = left.length := by omega
  have first : front = (merge precedes left right).take left.length := by
    rw [← mergeFirst_fst (Nat.le_refl _) notLonger, ← half, hfront]
  have last : back.reverse = (merge precedes left right).drop right.length := by
    have mirrored : (mergeFirst (fun y x => precedes x y) left.length right.reverse left.reverse).1
        = (merge (fun y x => precedes x y) right.reverse left.reverse).take left.length :=
      mergeFirst_fst (by rwa [List.length_reverse]) (Nat.le_of_eq List.length_reverse.symm)
    rw [← half, hback] at mirrored
    dsimp only at mirrored
    rw [mirrored, List.reverse_take, half, length_merge, List.length_reverse, List.length_reverse,
      Nat.add_sub_cancel, ← mergeFromEnd_eq h]
    rfl
  have lengthLeft := congrArg List.length splitLeft
  have lengthLeft' := congrArg List.length splitLeft'
  have lengthRight := congrArg List.length splitRight
  have lengthRight' := congrArg List.length splitRight'
  have lengthFront := permFront.length_eq
  have lengthBack := permBack.length_eq
  have lengthFirst := congrArg List.length first
  have lengthLast := congrArg List.length last
  simp only [List.length_append, List.length_reverse, List.length_take, List.length_drop,
    length_merge]
    at lengthLeft lengthLeft' lengthRight lengthRight' lengthFront lengthBack lengthFirst lengthLast
  obtain ⟨notPast, notPast'⟩ :=
    not_past splitLeft splitLeft' splitRight splitRight' (apart h) (apart' h.reverse) (by omega)
  rw [mergeEnds]
  simp only [hfront, hback]
  rw [← first, ← last]
  refine ⟨_, ?_, if_pos ?_⟩
  · rw [List.length_append, List.length_take, List.length_take]
    split <;> omega
  · split <;> omega

theorem mergeEnds_eq (h : Mergeable precedes left right) (notLonger : left.length ≤ right.length)
    (notMuch : right.length ≤ left.length + 1) :
    mergeEnds precedes left right = some (merge precedes left right) := by
  obtain ⟨middle, short, met⟩ := exists_middle h notLonger notMuch
  have whole := take_append_take_drop (merge precedes left right) notLonger
  have perm := (perm_mergeEnds met).trans (whole ▸ perm_merge left right).symm
  -- the other elements are the same, and so the middle is what a merge from the front has there
  rw [List.perm_append_right_iff, List.perm_append_left_iff] at perm
  rw [met, eq_of_perm_of_short perm short, whole]

end

end RowQuery.Sorting
