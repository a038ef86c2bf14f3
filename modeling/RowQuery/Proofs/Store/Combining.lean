import RowQuery.Proofs.Store.Trimming

/-!
How paths are combined. At the place where two of them meet there is one slash, however many there
were, so that it makes no difference which two of three paths are combined first. It stays when the
slashes at the ends are trimmed.
-/

namespace RowQuery.Path

theorem dropSlashes_dropSlashes (path : String) :
    dropSlashes (dropSlashes path) = dropSlashes path := by
  rw [dropSlashes, dropSlashes, String.toList_ofList, dropWhile_eq fun _ => not_first_dropWhile]

theorem dropEndSlashes_dropEndSlashes (path : String) :
    dropEndSlashes (dropEndSlashes path) = dropEndSlashes path := by
  rw [dropEndSlashes, dropEndSlashes, String.toList_ofList,
    dropEndWhile_eq fun _ => not_last_dropEndWhile]

theorem dropEndSlashes_dropSlashes (path : String) :
    dropEndSlashes (dropSlashes path) = dropSlashes (dropEndSlashes path) := by
  rw [dropEndSlashes, dropSlashes, dropSlashes, dropEndSlashes, String.toList_ofList,
    String.toList_ofList, dropWhile_dropEndWhile, Text.trimWhile]

theorem trimSlashes_eq_dropEndSlashes (path : String) :
    trimSlashes path = dropEndSlashes (dropSlashes path) := by
  rw [dropEndSlashes, dropSlashes, String.toList_ofList, trimSlashes, Text.trimWhile]

def IsNamed (path : String) : Prop := ∃ c ∈ path.toList, isSlash c = false

theorem isNamed_iff {path : String} :
    IsNamed path ↔ ∃ c ∈ path.toList, c ≠ '/' := by simp [IsNamed, isSlash]

theorem dropSlashes_eq_empty_iff {path : String} : dropSlashes path = "" ↔ ¬ IsNamed path := by
  rw [← String.toList_eq_nil_iff, dropSlashes, String.toList_ofList, List.dropWhile_eq_nil_iff,
    IsNamed]
  simp

theorem dropEndSlashes_eq_empty_iff {path : String} :
    dropEndSlashes path = "" ↔ ¬ IsNamed path := by
  rw [← String.toList_eq_nil_iff, dropEndSlashes, String.toList_ofList, dropEndWhile_eq_nil_iff,
    IsNamed]
  simp

theorem dropSlashes_append {front : String} (named : IsNamed front) (more : String) :
    dropSlashes (front ++ more) = dropSlashes front ++ more := by
  obtain ⟨c, member, kept⟩ := named
  apply String.toList_injective
  simp only [dropSlashes, String.toList_append, String.toList_ofList]
  exact dropWhile_append_of_kept member kept

theorem dropEndSlashes_append {more : String} (named : IsNamed more) (front : String) :
    dropEndSlashes (front ++ more) = front ++ dropEndSlashes more := by
  obtain ⟨c, member, kept⟩ := named
  apply String.toList_injective
  simp only [dropEndSlashes, String.toList_append, String.toList_ofList]
  exact dropEndWhile_append_of_kept member kept

theorem dropEndSlashes_append_slash (path : String) :
    dropEndSlashes (path ++ "/") = dropEndSlashes path := by
  rw [dropEndSlashes, dropEndSlashes, String.toList_append,
    dropEndWhile_append_of_all (by simp [isSlash])]

theorem combine_of_root {base : String} (root : ¬ IsNamed base) (name : String) :
    combine base name = dropSlashes name := by
  rw [combine, if_pos (String.isEmpty_iff.2 (dropEndSlashes_eq_empty_iff.2 root))]

theorem combine_of_named {base : String} (named : IsNamed base) (name : String) :
    combine base name = dropEndSlashes base ++ "/" ++ dropSlashes name := by
  rw [combine, if_neg]
  rw [String.isEmpty_iff, dropEndSlashes_eq_empty_iff]
  exact not_not_intro named

theorem isNamed_dropSlashes {path : String} : IsNamed (dropSlashes path) ↔ IsNamed path := by
  rw [← not_iff_not, ← dropSlashes_eq_empty_iff, dropSlashes_dropSlashes, dropSlashes_eq_empty_iff]

theorem isNamed_dropEndSlashes {path : String} : IsNamed (dropEndSlashes path) ↔ IsNamed path := by
  rw [← not_iff_not, ← dropEndSlashes_eq_empty_iff, dropEndSlashes_dropEndSlashes,
    dropEndSlashes_eq_empty_iff]

theorem trimSlashes_eq_empty_iff {path : String} : trimSlashes path = "" ↔ ¬ IsNamed path := by
  rw [trimSlashes_eq_dropEndSlashes, dropEndSlashes_eq_empty_iff, isNamed_dropSlashes]

theorem IsNamed.combine {name : String} (named : IsNamed name) (base : String) :
    IsNamed (combine base name) := by
  obtain ⟨c, member, kept⟩ := isNamed_dropSlashes.2 named
  refine ⟨c, ?_, kept⟩
  rw [Path.combine]
  split
  · exact member
  · rw [String.toList_append]
    exact List.mem_append_right _ member

theorem combine_congr {base base' name name' : String}
    (sameBase : dropEndSlashes base = dropEndSlashes base')
    (sameName : dropSlashes name = dropSlashes name') :
    combine base name = combine base' name' := by
  rw [combine, combine, sameBase, sameName]

theorem combine_append {name : String} (named : IsNamed name) (base more : String) :
    combine base (name ++ more) = combine base name ++ more := by
  rw [combine, combine, dropSlashes_append named]
  split
  · rfl
  · exact String.append_assoc.symm

theorem dropEndSlashes_combine {name : String} (named : IsNamed name) (base : String) :
    dropEndSlashes (combine base name) = combine base (dropEndSlashes name) := by
  by_cases inside : IsNamed base
  · rw [combine_of_named inside, combine_of_named inside,
      dropEndSlashes_append (isNamed_dropSlashes.2 named), dropEndSlashes_dropSlashes]
  · rw [combine_of_root inside, combine_of_root inside, dropEndSlashes_dropSlashes]

theorem dropEndSlashes_combine_of_root {name : String} (root : ¬ IsNamed name) (base : String) :
    dropEndSlashes (combine base name) = dropEndSlashes base := by
  by_cases inside : IsNamed base
  · rw [combine_of_named inside, dropSlashes_eq_empty_iff.2 root, String.append_empty,
      dropEndSlashes_append_slash, dropEndSlashes_dropEndSlashes]
  · rw [combine_of_root inside, dropSlashes_eq_empty_iff.2 root,
      dropEndSlashes_eq_empty_iff.2 inside]
    rfl

theorem combine_assoc (a b c : String) : combine (combine a b) c = combine a (combine b c) := by
  by_cases named : IsNamed b
  · calc combine (combine a b) c
      _ = combine a (dropEndSlashes b) ++ "/" ++ dropSlashes c := by
        rw [combine_of_named (named.combine a), dropEndSlashes_combine named]
      _ = combine a (dropEndSlashes b ++ "/" ++ dropSlashes c) := by
        rw [String.append_assoc, String.append_assoc,
          combine_append (isNamed_dropEndSlashes.2 named)]
      _ = combine a (combine b c) := by rw [combine_of_named named]
  · -- of slashes alone nothing is left between the other two
    apply combine_congr (dropEndSlashes_combine_of_root named a)
    rw [combine_of_root named, dropSlashes_dropSlashes]

theorem combine_right_inj (base : String) {name name' : String} :
    combine base name = combine base name' ↔ dropSlashes name = dropSlashes name' := by
  constructor
  · intro same
    rw [combine, combine] at same
    split at same
    · exact same
    · exact String.append_right_inj _ |>.1 same
  · exact combine_congr rfl

theorem trimSlashes_combine (container : String) {name : String}
    (named : ∃ c ∈ name.toList, c ≠ '/') :
    trimSlashes (combine container name) =
      if trimSlashes container = "" then trimSlashes name
        else trimSlashes container ++ "/" ++ trimSlashes name := by
  have inName : IsNamed (dropSlashes name) := isNamed_dropSlashes.2 (isNamed_iff.2 named)
  by_cases inside : IsNamed container
  · rw [if_neg (mt trimSlashes_eq_empty_iff.1 (not_not_intro inside))]
    calc trimSlashes (combine container name)
      _ = dropEndSlashes (dropSlashes (dropEndSlashes container ++ "/" ++ dropSlashes name)) := by
        rw [combine_of_named inside, trimSlashes_eq_dropEndSlashes]
      _ = dropEndSlashes (dropSlashes (dropEndSlashes container) ++ "/" ++ dropSlashes name) := by
        rw [String.append_assoc, dropSlashes_append (isNamed_dropEndSlashes.2 inside),
          ← String.append_assoc]
      _ = dropSlashes (dropEndSlashes container) ++ "/" ++ dropEndSlashes (dropSlashes name) :=
        dropEndSlashes_append inName _
      _ = trimSlashes container ++ "/" ++ trimSlashes name := by
        rw [← dropEndSlashes_dropSlashes, ← trimSlashes_eq_dropEndSlashes,
          ← trimSlashes_eq_dropEndSlashes]
  · rw [if_pos (trimSlashes_eq_empty_iff.2 inside), combine_of_root inside,
      trimSlashes_eq_dropEndSlashes, dropSlashes_dropSlashes, trimSlashes_eq_dropEndSlashes]

end RowQuery.Path
