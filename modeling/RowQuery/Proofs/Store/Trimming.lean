import Mathlib.Data.List.TakeWhile
import RowQuery.Store.Path

/-!
What is left of a text without the slashes at its ends.
-/

namespace RowQuery.Path

variable {p : Char → Bool} {cs more : List Char} {c : Char}

theorem not_first_dropWhile (first : c ∈ (cs.dropWhile p).head?) : p c = false := by
  have head := List.head?_dropWhile_not p cs
  rw [Option.mem_def.1 first] at head
  simpa using head

theorem not_last_dropEndWhile (last : c ∈ (Text.dropEndWhile p cs).getLast?) : p c = false := by
  rw [Text.dropEndWhile, List.getLast?_reverse] at last
  exact not_first_dropWhile last

theorem not_first_trimWhile (first : c ∈ (Text.trimWhile p cs).head?) : p c = false := by
  have inside : Text.trimWhile p cs <+: cs.dropWhile p := by
    rw [Text.trimWhile, Text.dropEndWhile, ← List.reverse_suffix, List.reverse_reverse]
    exact List.dropWhile_suffix _
  obtain ⟨rest, split⟩ := inside
  apply not_first_dropWhile
  rw [← split, List.head?_append, Option.mem_def.1 first, Option.some_or]
  rfl

theorem dropWhile_eq (h : ∀ c ∈ cs.head?, p c = false) : cs.dropWhile p = cs := by
  cases cs with
  | nil => rfl
  | cons c cs => rw [List.dropWhile_cons_of_neg (by simp [h c rfl])]

theorem dropEndWhile_eq (h : ∀ c ∈ cs.getLast?, p c = false) : Text.dropEndWhile p cs = cs := by
  rcases List.eq_nil_or_concat cs with rfl | ⟨front, c, rfl⟩
  · rfl
  · rw [List.concat_eq_append] at h ⊢
    simp [Text.dropEndWhile, h c (by simp)]

theorem dropWhile_append_of_kept (member : c ∈ cs) (kept : p c = false) :
    (cs ++ more).dropWhile p = cs.dropWhile p ++ more := by
  rw [List.dropWhile_append, if_neg]
  rw [List.isEmpty_iff, List.dropWhile_eq_nil_iff]
  exact fun all => absurd (all c member) (by simp [kept])

theorem dropEndWhile_append_of_kept (member : c ∈ more) (kept : p c = false) :
    Text.dropEndWhile p (cs ++ more) = cs ++ Text.dropEndWhile p more := by
  rw [Text.dropEndWhile, List.reverse_append,
    dropWhile_append_of_kept (List.mem_reverse.2 member) kept, List.reverse_append,
    List.reverse_reverse, Text.dropEndWhile]

theorem dropEndWhile_append_of_all (all : ∀ c ∈ more, p c = true) :
    Text.dropEndWhile p (cs ++ more) = Text.dropEndWhile p cs := by
  rw [Text.dropEndWhile, List.reverse_append,
    List.dropWhile_append_of_pos fun c h => all c (List.mem_reverse.1 h),
    Text.dropEndWhile]

theorem dropEndWhile_eq_nil_iff : Text.dropEndWhile p cs = [] ↔ ∀ c ∈ cs, p c = true := by
  rw [Text.dropEndWhile, List.reverse_eq_nil_iff, List.dropWhile_eq_nil_iff]
  simp only [List.mem_reverse]

theorem trimWhile_eq_nil_iff : Text.trimWhile p cs = [] ↔ ∀ c ∈ cs, p c = true := by
  rw [Text.trimWhile, dropEndWhile_eq_nil_iff, ← List.dropWhile_eq_nil_iff,
    dropWhile_eq fun _ => not_first_dropWhile,
    List.dropWhile_eq_nil_iff]

theorem trimWhile_around {front : List Char} (first : ∀ c ∈ front, p c = true)
    (last : ∀ c ∈ more, p c = true) :
    Text.trimWhile p (front ++ cs ++ more) = Text.trimWhile p cs := by
  rw [Text.trimWhile, List.append_assoc, List.dropWhile_append_of_pos first]
  by_cases all : ∀ c ∈ cs, p c = true
  · rw [trimWhile_eq_nil_iff.2 all]
    exact trimWhile_eq_nil_iff.2 (List.forall_mem_append.2 ⟨all, last⟩)
  · obtain ⟨c, member, kept⟩ := by simpa using all
    rw [dropWhile_append_of_kept member kept, dropEndWhile_append_of_all last, Text.trimWhile]

theorem trimWhile_of_last (last : c ∈ cs.getLast?) (kept : p c = false) :
    Text.trimWhile p cs = cs.dropWhile p := by
  obtain ⟨front, rfl⟩ := List.getLast?_eq_some_iff.1 last
  apply dropEndWhile_eq
  rw [List.dropWhile_append, List.dropWhile_cons_of_neg (by simp [kept])]
  split
  all_goals
    intro d h
    have same : c = d := by simpa using h
    rwa [← same]

theorem exists_dropEndWhile (p : Char → Bool) (cs : List Char) :
    ∃ last, (∀ c ∈ last, p c = true) ∧ Text.dropEndWhile p cs ++ last = cs := by
  refine ⟨(cs.reverse.takeWhile p).reverse,
    fun c h => List.mem_takeWhile_imp (List.mem_reverse.1 h), ?_⟩
  rw [Text.dropEndWhile, ← List.reverse_append, List.takeWhile_append_dropWhile,
    List.reverse_reverse]

theorem exists_trimWhile (p : Char → Bool) (cs : List Char) : ∃ first last,
    (∀ c ∈ first, p c = true) ∧ (∀ c ∈ last, p c = true) ∧
    first ++ Text.trimWhile p cs ++ last = cs := by
  obtain ⟨last, ending, split⟩ := exists_dropEndWhile p (cs.dropWhile p)
  refine ⟨cs.takeWhile p, last, fun c h => List.mem_takeWhile_imp h, ending, ?_⟩
  rw [List.append_assoc, Text.trimWhile, split, List.takeWhile_append_dropWhile]

theorem trimWhile_dropEndWhile (cs : List Char) :
    Text.trimWhile p (Text.dropEndWhile p cs) = Text.trimWhile p cs := by
  obtain ⟨last, ending, split⟩ := exists_dropEndWhile p cs
  have around : Text.trimWhile p ([] ++ Text.dropEndWhile p cs ++ last)
      = Text.trimWhile p (Text.dropEndWhile p cs) :=
    trimWhile_around (List.forall_mem_nil _) ending
  rw [List.nil_append, split] at around
  exact around.symm

theorem dropWhile_dropEndWhile (cs : List Char) :
    (Text.dropEndWhile p cs).dropWhile p = Text.trimWhile p cs := by
  rw [← trimWhile_dropEndWhile]
  cases last : (Text.dropEndWhile p cs).getLast? with
  | none =>
    rw [List.getLast?_eq_none_iff.1 last]
    rfl
  | some c => rw [trimWhile_of_last last (not_last_dropEndWhile last)]

theorem trimSlashes_eq {path : String} (first : ∀ c ∈ path.toList.head?, isSlash c = false)
    (last : ∀ c ∈ path.toList.getLast?, isSlash c = false) : trimSlashes path = path := by
  rw [trimSlashes, Text.trimWhile, dropWhile_eq first, dropEndWhile_eq last, String.ofList_toList]

@[simp] theorem trimSlashes_trimSlashes (path : String) :
    trimSlashes (trimSlashes path) = trimSlashes path := by
  apply trimSlashes_eq
  · intro c first
    rw [trimSlashes, String.toList_ofList] at first
    exact not_first_trimWhile first
  · intro c last
    rw [trimSlashes, String.toList_ofList] at last
    exact not_last_dropEndWhile last

def slashes (count : Nat) : String := String.ofList (List.replicate count '/')

theorem trimSlashes_around (i j : Nat) (path : String) :
    trimSlashes (slashes i ++ path ++ slashes j) = trimSlashes path := by
  have all (count : Nat) : ∀ c ∈ (slashes count).toList, isSlash c = true := by
    intro c h
    rw [slashes, String.toList_ofList] at h
    rw [List.eq_of_mem_replicate h]
    rfl
  rw [trimSlashes, String.toList_append, String.toList_append, trimWhile_around (all i) (all j),
    trimSlashes]

end RowQuery.Path
