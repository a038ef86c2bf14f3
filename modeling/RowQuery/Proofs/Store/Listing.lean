import RowQuery.Store

/-!
The listing of a container: every object below it, in the order of the paths.
-/

namespace RowQuery.Store

def below : Store → String → List String
  | memory s, container => s.objects.names.filter fun path =>
      Path.trimSlashes container = "" ∨ Path.isBelow (Path.trimSlashes container) path = true
  | files t, container =>
    match t.walk (FileTree.names container) with
    | .directory standing => (FileNode.filesOf standing.entries).map fun names =>
        "/".intercalate (FileTree.steps (FileTree.names container) ++ names)
    | _ => []

theorem sorted_list (store : Store) (container : String) :
    (store.list container).Pairwise (· ≤ ·) := by
  cases store with
  | memory s =>
    exact (s.objects.sorted_names.imp fun lt => String.not_lt.1 (String.lt_asymm lt)).filter _
  | files t =>
    rw [list, FileTree.list]
    cases t.walk (FileTree.names container) with
    | directory standing =>
      refine (List.pairwise_mergeSort ?_ ?_ _).imp of_decide_eq_true
      · intro a b c hab hbc
        exact decide_eq_true (String.le_trans (of_decide_eq_true hab) (of_decide_eq_true hbc))
      · intro a b
        rcases String.le_total a b with h | h <;> simp [h]
    | file place content => exact .nil
    | missing => exact .nil
    | refused => exact .nil

end RowQuery.Store
