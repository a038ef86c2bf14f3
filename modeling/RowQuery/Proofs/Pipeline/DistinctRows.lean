import RowQuery.Pipeline.Stage
import RowQuery.Proofs.Row

/-!
Removing duplicates. A row stays where no row before it is the same, and this is all there is to it:
the rows that were seen count only up to being the same, so that duplicates may be removed again, or
from parts first.
-/

namespace RowQuery

namespace Row

variable {a b : Row}

theorem same_self (a : Row) : a.same a = true :=
  beq_iff_eq.2 Std.ReflCmp.compare_self

theorem same_comm (a b : Row) : a.same b = b.same a := by
  rw [Bool.eq_iff_iff, same, same, beq_iff_eq, beq_iff_eq]
  exact Std.OrientedCmp.eq_comm

theorem same_congr (h : a.same b = true) (c : Row) : a.same c = b.same c := by
  have equal : a.order b = .eq := beq_iff_eq.1 h
  rw [Bool.eq_iff_iff, same, same, beq_iff_eq, beq_iff_eq]
  exact ⟨Std.TransCmp.eq_trans (Std.OrientedCmp.eq_comm.1 equal), Std.TransCmp.eq_trans equal⟩

theorem any_same_congr (h : a.same b = true) (seen : List Row) :
    seen.any a.same = seen.any b.same := by
  rw [funext (same_congr h)]

end Row

variable {seen seen' rows : List Row}

def FirstAt (rows : List Row) (i : ℕ) : Prop :=
  ∃ row, rows[i]? = some row ∧ ∀ earlier ∈ rows.take i, row.same earlier = false

theorem FirstAt.lt_length {i : ℕ} (h : FirstAt rows i) : i < rows.length := by
  obtain ⟨row, found, -⟩ := h
  exact (List.getElem?_eq_some_iff.1 found).1

theorem distinctAfter_congr (h : ∀ row : Row, seen.any row.same = seen'.any row.same)
    (rows : List Row) : distinctAfter seen rows = distinctAfter seen' rows := by
  induction rows generalizing seen seen' with
  | nil => rfl
  | cons row rows ih =>
    have rest : distinctAfter (row :: seen) rows = distinctAfter (row :: seen') rows :=
      ih fun other => by rw [List.any_cons, List.any_cons, h]
    rw [distinctAfter, distinctAfter, h, ih h, rest]

theorem distinctAfter_append (seen xs ys : List Row) :
    distinctAfter seen (xs ++ ys) = distinctAfter seen xs ++ distinctAfter (xs ++ seen) ys := by
  induction xs generalizing seen with
  | nil => rfl
  | cons row xs ih =>
    rw [List.cons_append, distinctAfter, distinctAfter]
    split
    · next known =>
      rw [ih]
      congr 1
      refine distinctAfter_congr (fun other => ?_) ys
      rw [List.cons_append, List.any_cons, List.any_append]
      cases same : other.same row with
      | false => rfl
      | true => rw [Row.any_same_congr same seen, known, Bool.or_true, Bool.or_true]
    · rw [ih, List.cons_append]
      congr 2
      refine distinctAfter_congr (fun other => ?_) ys
      rw [List.cons_append, List.any_cons, List.any_append, List.any_append, List.any_cons,
        Bool.or_left_comm]

theorem distinctRows_append (xs ys : List Row) :
    distinctRows (xs ++ ys) = distinctRows xs ++ distinctAfter xs ys := by
  rw [distinctRows, distinctAfter_append, List.append_nil]
  rfl

theorem distinctRows_concat (rows : List Row) (row : Row) :
    distinctRows (rows ++ [row]) = distinctRows rows ++ if rows.any row.same then []
      else [row] := by
  rw [distinctRows_append, distinctAfter]
  rfl

theorem any_distinctRows (rows : List Row) (row : Row) :
    (distinctRows rows).any row.same = rows.any row.same := by
  induction rows using List.reverseRecOn with
  | nil => rfl
  | append_singleton rows last ih =>
    rw [distinctRows_concat, List.any_append, List.any_append, ih]
    split
    · next known =>
      cases same : row.same last with
      | false => simp [same]
      | true => simp [Row.any_same_congr same, known]
    · rfl

theorem distinctRows_sublist (rows : List Row) : (distinctRows rows).Sublist rows := by
  induction rows using List.reverseRecOn with
  | nil => exact .refl _
  | append_singleton rows last ih =>
    rw [distinctRows_concat]
    refine ih.append ?_
    split
    · exact List.nil_sublist _
    · exact .refl _

theorem pairwise_distinctRows (rows : List Row) :
    (distinctRows rows).Pairwise fun a b => a.same b = false := by
  induction rows using List.reverseRecOn with
  | nil => exact .nil
  | append_singleton rows last ih =>
    rw [distinctRows_concat]
    split
    · rwa [List.append_nil]
    · next unknown =>
      refine List.pairwise_append.2 ⟨ih, List.pairwise_singleton _ _, fun a ha b hb => ?_⟩
      rw [List.mem_singleton.1 hb, Row.same_comm, ← Bool.not_eq_true]
      exact fun same => unknown
        (List.any_eq_true.2 ⟨a, (distinctRows_sublist rows).subset ha, same⟩)

theorem firstAt_concat {row : Row} {i : ℕ} : FirstAt (rows ++ [row]) i ↔
    FirstAt rows i ∨ i = rows.length ∧ rows.any row.same = false := by
  rcases Nat.lt_trichotomy i rows.length with inside | rfl | outside
  · rw [FirstAt, FirstAt, List.getElem?_append_left inside, List.take_append_of_le_length inside.le]
    exact ⟨.inl, fun h => h.resolve_right fun last => inside.ne last.1⟩
  · simp [FirstAt]
  · refine iff_of_false (fun first => ?_) (fun first => ?_)
    · have := first.lt_length
      rw [List.length_append, List.length_singleton] at this
      omega
    · rcases first with first | last
      · exact outside.asymm first.lt_length
      · exact outside.ne' last.1

/-- The rows that stay are those at the places where a row comes first. -/
theorem distinctRows_places (rows : List Row) : ∃ places : List ℕ, places.Pairwise (· < ·) ∧
    (∀ i, i ∈ places ↔ FirstAt rows i) ∧ (distinctRows rows).map some = places.map (rows[·]?) := by
  induction rows using List.reverseRecOn with
  | nil => exact ⟨[], .nil, by simp [FirstAt], rfl⟩
  | append_singleton rows last ih =>
    obtain ⟨places, increasing, first, kept⟩ := ih
    have inside {i : ℕ} (hi : i ∈ places) : i < rows.length := ((first i).1 hi).lt_length
    have before : places.map ((rows ++ [last])[·]?) = places.map (rows[·]?) :=
      List.map_congr_left fun i hi => List.getElem?_append_left (inside hi)
    rw [distinctRows_concat]
    cases known : rows.any last.same with
    | true =>
      refine ⟨places, increasing, fun i => ?_, ?_⟩
      · simp [first, firstAt_concat, known]
      · simp [kept, before]
    | false =>
      refine ⟨places ++ [rows.length], ?_, fun i => ?_, ?_⟩
      · simpa [List.pairwise_append, increasing] using fun i hi => inside hi
      · simp [first, firstAt_concat, known]
      · simp [kept, before]

theorem distinctAfter_distinctAfter
    (h : ∀ row : Row, seen'.any row.same = true → seen.any row.same = true) (rows : List Row) :
    distinctAfter seen (distinctAfter seen' rows) = distinctAfter seen rows := by
  induction rows generalizing seen seen' with
  | nil => rfl
  | cons row rows ih =>
    rw [distinctAfter.eq_2 seen', distinctAfter.eq_2 seen]
    split
    · next known => rw [if_pos (h row known), ih h]
    · rw [distinctAfter]
      split
      · next known =>
        refine ih fun other seen => ?_
        rw [List.any_cons, Bool.or_eq_true] at seen
        rcases seen with same | seen
        · rwa [Row.any_same_congr same]
        · exact h other seen
      · rw [ih fun other seen => ?_]
        rw [List.any_cons, Bool.or_eq_true] at seen ⊢
        exact seen.imp_right (h other)

theorem distinctRows_distinctRows (rows : List Row) :
    distinctRows (distinctRows rows) = distinctRows rows :=
  distinctAfter_distinctAfter (fun _ seen => seen) rows

theorem distinctRows_blocks (xs ys : List Row) :
    distinctRows (distinctRows xs ++ distinctRows ys) = distinctRows (xs ++ ys) := by
  calc
    distinctRows (distinctRows xs ++ distinctRows ys)
        = distinctRows xs ++ distinctAfter (distinctRows xs) (distinctRows ys) := by
      rw [distinctRows_append, distinctRows_distinctRows]
    _ = distinctRows xs ++ distinctAfter xs (distinctAfter [] ys) := by
      rw [distinctAfter_congr (any_distinctRows xs)]
      rfl
    _ = distinctRows xs ++ distinctAfter xs ys := by
      rw [distinctAfter_distinctAfter (by simp)]
    _ = distinctRows (xs ++ ys) := (distinctRows_append xs ys).symm

theorem distinctRows_filter {p : Row → Bool} (h : ∀ a b : Row, a.same b = true → p a = p b)
    (rows : List Row) : distinctRows (rows.filter p) = (distinctRows rows).filter p := by
  induction rows using List.reverseRecOn with
  | nil => rfl
  | append_singleton rows last ih =>
    rw [List.filter_append, distinctRows_concat, List.filter_append, ← ih]
    cases meets : p last with
    | false =>
      rw [List.filter_cons_of_neg (by simp [meets]), List.filter_nil, List.append_nil]
      split <;> simp [meets]
    | true =>
      have known : (rows.filter p).any last.same = rows.any last.same := by
        rw [List.any_filter]
        congr 1
        funext row
        cases same : last.same row with
        | false => rw [Bool.and_false]
        | true => rw [← h last row same, meets, Bool.and_true]
      rw [List.filter_cons_of_pos meets, List.filter_nil, distinctRows_concat, known]
      split <;> simp [meets]

/-- Removing duplicates never fails. It keeps some of the rows in their order, no two of which are
the same, and one for each row that there was, namely the rows that come first among those that are
the same as they are. Doing it again changes nothing, and neither does doing it to the parts of a
list first. -/
theorem Stage.eval_distinct (rows xs ys : List Row) :
    (∃ kept, Stage.distinct.eval rows = .ok kept ∧ kept.Sublist rows ∧
      kept.Pairwise (fun a b => a.same b = false) ∧
      (∀ row ∈ rows, ∃ first ∈ kept, row.same first = true) ∧
      (∃ places : List ℕ, places.Pairwise (· < ·) ∧ (∀ i, i ∈ places ↔ FirstAt rows i) ∧
        kept.map some = places.map (rows[·]?)) ∧
      Stage.distinct.eval kept = .ok kept) ∧
    Stage.distinct.eval (xs ++ ys) = (do
      let front ← Stage.distinct.eval xs
      let back ← Stage.distinct.eval ys
      Stage.distinct.eval (front ++ back)) := by
  have covered (row : Row) (hrow : row ∈ rows) :
      ∃ first ∈ distinctRows rows, row.same first = true := by
    rw [← List.any_eq_true, any_distinctRows]
    exact List.any_eq_true.2 ⟨row, hrow, row.same_self⟩
  refine ⟨⟨distinctRows rows, rfl, distinctRows_sublist rows, pairwise_distinctRows rows, covered,
    distinctRows_places rows,
    congrArg Except.ok (distinctRows_distinctRows rows)⟩, ?_⟩
  exact congrArg Except.ok (distinctRows_blocks xs ys).symm

theorem Stage.eval_distinct_patterns :
    let row (x : Binary64) : Row := NameMap.empty.insert "x" (.float x)
    let zero := row ⟨0⟩
    let negative := row ⟨0x8000000000000000⟩
    let wide := zero.insert "y" .null
    let nan := row ⟨0x7ff8000000000000⟩
    let other := row ⟨0xfff8000000000001⟩
    Stage.distinct.eval [negative, other, wide, zero, nan] = .ok [negative, other, wide] ∧
    (∃ first ∈ [negative, other, wide], zero.same first = true) := by
  intro row zero negative wide nan other
  have result : Stage.distinct.eval [negative, other, wide, zero, nan]
    = .ok [negative, other, wide] := by decide +kernel
  obtain ⟨⟨kept, given, -, -, covered, -⟩, -⟩ :=
    Stage.eval_distinct [negative, other, wide, zero, nan] [] []
  obtain rfl := Except.ok.inj (given.symm.trans result)
  exact ⟨result, covered zero (by simp)⟩

end RowQuery
