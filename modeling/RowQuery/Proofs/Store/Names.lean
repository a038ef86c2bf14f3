import RowQuery.Proofs.Store.Trimming
import RowQuery.Store.FileTree

/-!
The names on a path. The last one tells objects apart, in memory as well as in files.
-/

namespace RowQuery

namespace Path

theorem splitSlashes_ne_nil (cs : List Char) : splitSlashes cs ≠ [] := by
  cases cs with
  | nil => simp [splitSlashes]
  | cons c cs =>
    rw [splitSlashes]
    split
    · simp
    · cases splitSlashes cs <;> simp

theorem splitSlashes_append (front rest : List Char) :
    splitSlashes (front ++ '/' :: rest) = splitSlashes front ++ splitSlashes rest := by
  induction front with
  | nil => rfl
  | cons c front ih =>
    rw [List.cons_append, splitSlashes, splitSlashes, ih]
    split
    · rfl
    · cases hs : splitSlashes front with
      | nil => exact absurd hs (splitSlashes_ne_nil front)
      | cons piece pieces => rfl

theorem splitSlashes_plain {cs : List Char} (plain : ∀ c ∈ cs, isSlash c = false) :
    splitSlashes cs = [cs] := by
  induction cs with
  | nil => rfl
  | cons c cs ih =>
    rw [List.forall_mem_cons] at plain
    rw [splitSlashes, plain.1, ih plain.2]
    rfl

theorem isSlash_of_mem_splitSlashes {cs piece : List Char} (h : piece ∈ splitSlashes cs) {c : Char}
    (hc : c ∈ piece) : isSlash c = false := by
  induction cs generalizing piece with
  | nil => simp_all [splitSlashes]
  | cons d cs ih =>
    rw [splitSlashes] at h
    split at h
    · rcases List.mem_cons.1 h with rfl | h
      · cases hc
      · exact ih h hc
    · next plain =>
      cases hs : splitSlashes cs with
      | nil => simp_all
      | cons first rest =>
        rw [hs] at h ih
        rcases List.mem_cons.1 h with rfl | h
        · rcases List.mem_cons.1 hc with rfl | hc
          · exact Bool.eq_false_iff.2 plain
          · exact ih List.mem_cons_self hc
        · exact ih (List.mem_cons_of_mem _ h) hc

def lastName (path : String) : String := (FileTree.names path).getLastD ""

theorem lastName_of_nil {path : String} (h : path.toList.dropWhile isSlash = []) :
    lastName path = "" := by
  rw [lastName, FileTree.names, pieces, dropSlashes, h]
  rfl

theorem isSlash_last {path : String} (named : lastName path ≠ "") {c : Char}
    (last : c ∈ (path.toList.dropWhile isSlash).getLast?) : isSlash c = false := by
  obtain ⟨front, split⟩ := List.getLast?_eq_some_iff.1 last
  rw [Bool.eq_false_iff]
  intro slash
  obtain rfl : c = '/' := by simpa [isSlash] using slash
  apply named
  rw [lastName, FileTree.names, pieces, dropSlashes, String.toList_ofList, split,
    splitSlashes_append]
  simp [splitSlashes]

theorem trimSlashes_of_lastName {path : String} (named : lastName path ≠ "") :
    trimSlashes path = dropSlashes path := by
  rw [trimSlashes, Text.trimWhile, dropEndWhile_eq fun c => isSlash_last named, dropSlashes]

theorem dropEndSlashes_of_lastName {path : String} (named : lastName path ≠ "") :
    dropEndSlashes path = path := by
  have last : path.toList.getLast? = (path.toList.dropWhile isSlash).getLast? := by
    have split := @List.takeWhile_append_dropWhile _ isSlash path.toList
    cases h : path.toList.dropWhile isSlash with
    | nil => exact absurd (lastName_of_nil h) named
    | cons c cs =>
      rw [h] at split
      rw [← split, List.getLast?_append, List.getLast?_eq_some_getLast (List.cons_ne_nil c cs),
        Option.some_or]
  rw [dropEndSlashes, dropEndWhile_eq, String.ofList_toList]
  intro c hc
  rw [last] at hc
  exact isSlash_last named hc

theorem names_combine {name : String} (plain : ∀ c ∈ name.toList, isSlash c = false)
    (base : String) :
    ∃ front, FileTree.names (combine base name) = front ++ [name] ∧
      (lastName base ≠ "" → front = FileTree.names base) := by
  have kept : name.toList.dropWhile isSlash = name.toList :=
    dropWhile_eq fun c first => plain c (List.mem_of_head? first)
  have same : dropSlashes name = name := by rw [dropSlashes, kept, String.ofList_toList]
  have alone : FileTree.names name = [name] := by
    rw [FileTree.names, same, pieces, splitSlashes_plain plain, List.map_singleton,
      String.ofList_toList]
  rw [combine, same]
  split
  · next empty =>
    refine ⟨[], alone, fun named => absurd ?_ named⟩
    rw [dropEndSlashes_of_lastName named, String.isEmpty_iff] at empty
    rw [empty]
    rfl
  · have all : FileTree.names (dropEndSlashes base ++ "/" ++ name)
        = (splitSlashes ((dropEndSlashes base).toList ++
          '/' :: name.toList |>.dropWhile isSlash)).map String.ofList := by
      rw [FileTree.names, pieces, dropSlashes, String.toList_ofList, String.toList_append,
        String.toList_append, List.append_assoc]
      rfl
    rw [all, List.dropWhile_append]
    split
    · next none =>
      refine ⟨[], ?_, fun named => absurd ?_ named⟩
      · rw [List.dropWhile_cons_of_pos rfl, kept, splitSlashes_plain plain, List.map_singleton,
          String.ofList_toList]
        rfl
      · rw [dropEndSlashes_of_lastName named, List.isEmpty_iff] at none
        exact lastName_of_nil none
    · refine ⟨(splitSlashes ((dropEndSlashes base).toList.dropWhile isSlash)).map String.ofList, ?_,
        fun named => ?_⟩
      · rw [splitSlashes_append, splitSlashes_plain plain, List.map_append, List.map_singleton,
          String.ofList_toList]
      · rw [dropEndSlashes_of_lastName named, FileTree.names, pieces, dropSlashes,
          String.toList_ofList]

theorem lastName_combine {name : String} (plain : ∀ c ∈ name.toList, isSlash c = false)
    (base : String) : lastName (combine base name) = name := by
  obtain ⟨front, names, -⟩ := names_combine plain base
  rw [lastName, names]
  simp

theorem lastName_congr {path other : String} (named : lastName path ≠ "")
    (named' : lastName other ≠ "") (same : trimSlashes path = trimSlashes other) :
    lastName path = lastName other := by
  rw [trimSlashes_of_lastName named, trimSlashes_of_lastName named'] at same
  rw [lastName, lastName, FileTree.names, FileTree.names, same]

end Path

end RowQuery
