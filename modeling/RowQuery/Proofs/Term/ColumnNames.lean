import RowQuery.Query.Plan

/-!
The name of a column and its components. A name is taken apart at its points and put together again
without a loss, whatever points it begins or ends with, so that a column is looked up under the name
it was written with.
-/

namespace RowQuery

theorem splitPoints_eq_splitOn (cs : List Char) : splitPoints cs = cs.splitOn '.' := by
  induction cs with
  | nil => rw [splitPoints, List.splitOn_nil]
  | cons c cs ih =>
    rw [splitPoints, List.splitOn_cons_eq_if_modifyHead, ih]
    simp only [beq_iff_eq]
    split
    · rfl
    · cases pieces : cs.splitOn '.' with
      | nil => exact absurd pieces (List.splitOn_ne_nil _ _)
      | cons piece rest => rfl

theorem joinPoints_eq_intercalate (pieces : List (List Char)) :
    joinPoints pieces = ['.'].intercalate pieces := by
  fun_induction joinPoints pieces with
  | case1 => rw [List.intercalate_nil]
  | case2 => rw [List.intercalate_singleton]
  | case3 piece rest more ih =>
    cases rest with
    | nil => exact absurd rfl more
    | cons next rest =>
      rw [ih, List.intercalate_cons_cons, List.append_assoc, List.singleton_append]

theorem joinPoints_splitPoints (cs : List Char) : joinPoints (splitPoints cs) = cs := by
  rw [splitPoints_eq_splitOn, joinPoints_eq_intercalate, List.intercalate_splitOn]

theorem splitPoints_joinPoints {pieces : List (List Char)} (some : pieces ≠ [])
    (plain : ∀ piece ∈ pieces, '.' ∉ piece) : splitPoints (joinPoints pieces) = pieces := by
  rw [joinPoints_eq_intercalate, splitPoints_eq_splitOn, List.splitOn_intercalate _ plain some]

theorem columnName_splitPoints (name : String) :
    columnName ((splitPoints name.toList).map String.ofList) = name := by
  have chars : String.toList ∘ String.ofList = id := funext fun _ => String.toList_ofList
  rw [columnName, List.map_map, chars, List.map_id, joinPoints_splitPoints, String.ofList_toList]

namespace Term

/-- A name and the column reference that is made of it stand for each other: the reference has the
name again, and components without points are found again in what is made of their joined name. So a
row is asked for the column under the very name, by the compiled term and by the item of a
projection. -/
theorem ofColumnName_inverse :
    (∀ name, (ofColumnName name).columnName? = some name) ∧
    (∀ components, components ≠ [] → (∀ component ∈ components, '.' ∉ component.toList) →
      ofColumnName (columnName components) = column components) ∧
    (∀ name, (ofColumnName name).compile = .ok fun row => row.lookup name) ∧
    ∀ (compile : Compiler) name label, Projection.step compile (.item (ofColumnName name) label) =
      .ok (if name = Projection.wildcard then .star else .column name (label.getD name)) := by
  refine ⟨fun name => ?_, fun components some plain => ?_, fun name => ?_,
    fun compile name label => ?_⟩
  · rw [ofColumnName, columnName?, columnName_splitPoints]
  · have pieces : splitPoints (joinPoints (components.map String.toList))
        = components.map String.toList :=
      splitPoints_joinPoints (mt List.map_eq_nil_iff.1 some) (List.forall_mem_map.2 plain)
    have texts : String.ofList ∘ String.toList = id := funext fun _ => String.ofList_toList
    rw [ofColumnName, columnName, String.toList_ofList, pieces, List.map_map, texts, List.map_id]
  · rw [ofColumnName, compile, columnName_splitPoints]
  · rw [ofColumnName, Projection.step, columnName_splitPoints]
    split <;> rfl

theorem ofColumnName_inverse_points :
    (ofColumnName ".a..b.").columnName? = some ".a..b." ∧
    ofColumnName (columnName ["", "a", "", "b", ""]) = column ["", "a", "", "b", ""] ∧
    (ofColumnName "").columnName? = some "" ∧ ofColumnName (columnName [""]) = column [""] := by
  obtain ⟨name, components, -, -⟩ := ofColumnName_inverse
  exact ⟨name _, components _ (by simp) (by simp), name _, components _ (by simp) (by simp)⟩

end Term

end RowQuery
