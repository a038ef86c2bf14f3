import RowQuery.Proofs.Term.Compiled

/-!
What a term reads of a row: the columns that it names. Rows that agree in these are one row to the
compiled term, whatever else they hold, and whether or not it comes to look at all of the columns.
-/

namespace RowQuery

namespace Row

def AgreeOn (names : List String) (row row' : Row) : Prop :=
  ∀ name ∈ names, row.get? name = row'.get? name

variable {names names' : List String} {row row' : Row}

theorem AgreeOn.of_subset (inside : names ⊆ names') (h : AgreeOn names' row row') :
    AgreeOn names row row' :=
  fun name member => h name (inside member)

theorem AgreeOn.lookup {name : String} (h : AgreeOn names row row') (member : name ∈ names) :
    row.lookup name = row'.lookup name := by
  rw [Row.lookup, Row.lookup, h name member]

end Row

namespace Term

open Row (AgreeOn)

theorem binaryExpression_congr (op : BinaryOp) {l r : Expression} {row row' : Row}
    (left : l row = l row') (right : r row = r row') :
    binaryExpression op l r row = binaryExpression op l r row' := by
  fun_cases binaryExpression op with
  | case1 => rw [andThen, andThen, left, right]
  | case2 => rw [orElse, orElse, left, right]
  | case3 => rw [strict, strict, left, right]

theorem mapM_congr_of_agree {args : List Term} {es : List Expression} {row row' : Row}
    (parts : List.Forall₂
      (fun t e => ∀ row row', AgreeOn t.columns row row' → e row = e row') args es)
    (agree : AgreeOn (columnsAll args) row row') :
    (es.mapM fun e => e row) = es.mapM fun e => e row' := by
  induction parts with
  | nil => rfl
  | cons first _ ih =>
    rw [List.mapM_cons, List.mapM_cons,
      first row row' (agree.of_subset (List.subset_append_left ..)),
      ih (agree.of_subset (List.subset_append_right ..))]

/-- Rows that agree in the columns of a term are one row to what it compiles to. -/
theorem compositional_reads :
    Compositional fun t e => ∀ row row', AgreeOn t.columns row row' → e row = e row' where
  column _ _ _ agree := agree.lookup (List.mem_singleton_self _)
  literal _ _ _ _ := rfl
  unary _ _ _ h row row' agree := by simp only [h row row' agree]
  binary op _ _ _ _ left right row row' agree :=
    binaryExpression_congr op (left row row' (agree.of_subset (List.subset_append_left ..)))
      (right row row' (agree.of_subset (List.subset_append_right ..)))
  isNull _ _ _ h row row' agree := by simp only [h row row' agree]
  call _ parts _ _ agree := by simp only [mapM_congr_of_agree parts agree]

end Term

end RowQuery
