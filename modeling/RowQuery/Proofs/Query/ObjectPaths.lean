import RowQuery.Proofs.Pipeline.Writing
import RowQuery.Proofs.Query.Shares
import RowQuery.Proofs.Store.Combining

/-!
The paths of all that is written: files of workers in a folder, and segments in the folders of
persisted rows. They are combined from names that differ, and are found under different keys of a
store.
-/

namespace RowQuery

theorem Segment.path_injective {persistDir id id' : String} {n n' : Nat}
    (plain : ∀ c ∈ id.toList, Path.isSlash c = false)
    (plain' : ∀ c ∈ id'.toList, Path.isSlash c = false) (some : id ≠ "") (some' : id' ≠ "")
    (same : Path.trimSlashes (Path.combine (Path.combine persistDir id) (name n))
      = Path.trimSlashes (Path.combine (Path.combine persistDir id') (name n'))) : id
        = id' ∧ n = n' := by
  have named (folder : String) (k : Nat) : Path.lastName (Path.combine folder (name k)) ≠ "" := by
    rw [lastName_combine]
    exact name_ne_empty k
  rw [Path.trimSlashes_of_lastName (named _ n), Path.trimSlashes_of_lastName (named _ n')] at same
  have folder := Path.lastName_combine plain persistDir
  have folder' := Path.lastName_combine plain' persistDir
  obtain ⟨front, names, fromFolder⟩ :=
    Path.names_combine (isSlash_of_mem_name n) (Path.combine persistDir id)
  obtain ⟨front', names', fromFolder'⟩ :=
    Path.names_combine (isSlash_of_mem_name n') (Path.combine persistDir id')
  have lists : front ++ [name n] = front' ++ [name n'] := by
    rw [← names, ← names', FileTree.names, FileTree.names, same]
  obtain ⟨fronts, last⟩ := List.append_inj' lists rfl
  rw [fromFolder (folder.trans_ne some), fromFolder' (folder'.trans_ne some')] at fronts
  refine ⟨?_, name_injective (List.singleton_inj.1 last)⟩
  rw [← folder, ← folder', Path.lastName, Path.lastName, fronts]

namespace Path

/-- Paths can be combined in any grouping, and a path has the name that was combined with its base
but for the slashes that the name begins with. So files of workers with different identifiers in one
folder, and segments with different numbers or in the folders of different identifiers, have
different paths, also without regard to slashes at the ends. -/
theorem combine_assoc_and_injective :
    (∀ a b c, combine (combine a b) c = combine a (combine b c)) ∧
    (∀ base name name', combine base name = combine base name' ↔
      dropSlashes name = dropSlashes name') ∧
    (∀ folder (writer writer' : RowWriter) (ids ids' : Ids) (i i' : Nat),
      (ids.processText, ids.nth i) ≠ (ids'.processText, ids'.nth i') →
      trimSlashes (PartWriter.filePath folder writer ids (ids.nth i)) ≠
        trimSlashes (PartWriter.filePath folder writer' ids' (ids'.nth i'))) ∧
    ∀ persistDir (ids ids' : Ids) (i i' n n' : Nat), (ids.nth i, n) ≠ (ids'.nth i', n') →
      trimSlashes (combine (combine persistDir (ids.nth i)) (Segment.name n)) ≠
        trimSlashes (combine (combine persistDir (ids'.nth i')) (Segment.name n')) := by
  refine ⟨combine_assoc, fun base _ _ => combine_right_inj base, ?_, ?_⟩
  · intro folder writer writer' ids ids' i i' apart same
    obtain ⟨process, id, -⟩ :=
      PartWriter.filePath_injective Ids.isSlash_of_mem_text Ids.isSlash_of_mem_text same
    exact apart (Prod.ext process id)
  · intro persistDir ids ids' i i' n n' apart same
    obtain ⟨id, number⟩ :=
      Segment.path_injective Ids.isSlash_of_mem_text Ids.isSlash_of_mem_text (Ids.text_ne_empty _)
      (Ids.text_ne_empty _) same
    exact apart (Prod.ext id number)

theorem combine_assoc_and_injective_slashes :
    let ids : Ids := {}
    combine (combine "//" "/") "/x" = combine "//" (combine "/" "/x") ∧
    combine (combine "a/" "//") "/x" = combine "a/" (combine "//" "/x") ∧
    dropSlashes "//x" ≠ dropSlashes "x/" ∧ combine "/a/" "//x" ≠ combine "/a/" "x/" ∧
    (ids.processText, ids.nth 0) ≠ (ids.processText, ids.nth 1) ∧
    trimSlashes (PartWriter.filePath "/out/" .jsonl ids (ids.nth 0)) ≠
      trimSlashes (PartWriter.filePath "/out/" (.csv 44) ids (ids.nth 1)) ∧
    trimSlashes (combine (combine "p//" (ids.nth 0)) (Segment.name 7)) ≠
      trimSlashes (combine (combine "p//" (ids.nth 0)) (Segment.name 70)) := by
  intro ids
  obtain ⟨assoc, injective, files, segments⟩ := combine_assoc_and_injective
  have names : dropSlashes "//x" ≠ dropSlashes "x/" := by decide
  have drawn : (ids.processText, ids.nth 0) ≠ (ids.processText, ids.nth 1) := by decide
  exact ⟨assoc .., assoc .., names, mt (injective ..).1 names, drawn, files _ _ _ _ _ _ _ drawn,
    segments _ _ _ _ _ _ _ (by simp)⟩

end Path

end RowQuery
