import RowQuery.Engine.Ids
import RowQuery.Store.Path

/-!
The identifiers that are drawn between two states of a source.
-/

namespace RowQuery.Ids

theorem isSlash_of_mem_digits {n count : Nat} : ∀ c ∈ digits n count, Path.isSlash c = false := by
  have digit : ∀ k < 16, Path.isSlash (Bytes.hexDigit k) = false := by decide
  induction count generalizing n with
  | zero => exact fun _ h => nomatch h
  | succ count ih =>
    intro c h
    rcases List.mem_append.1 h with h | h
    · exact ih c h
    · rw [List.mem_singleton.1 h]
      exact digit _ (Nat.mod_lt n (by decide))

theorem length_digits (n count : Nat) : (digits n count).length = count := by
  induction count generalizing n with
  | zero => rfl
  | succ count ih => rw [digits, List.length_append, ih, List.length_singleton]

theorem toList_text (n : Nat) : (text n).toList = digits n 32 := String.toList_ofList

theorem isSlash_of_mem_text {n : Nat} : ∀ c ∈ (text n).toList, Path.isSlash c = false := by
  rw [toList_text]
  exact isSlash_of_mem_digits

theorem length_text (n : Nat) : (text n).toList.length = 32 := by rw [toList_text, length_digits]

theorem text_ne_empty (n : Nat) : text n ≠ "" := by
  intro empty
  have length := length_text n
  rw [empty] at length
  cases length

def drawnUntil (ids later : Ids) : List String :=
  (List.range' ids.draws.count (later.draws.count - ids.draws.count)).map ids.nth

theorem isSlash_of_mem_drawnUntil {ids later : Ids} {id : String} (h : id ∈ ids.drawnUntil later) :
    ∀ c ∈ id.toList, Path.isSlash c = false := by
  obtain ⟨i, -, rfl⟩ := List.mem_map.1 h
  exact isSlash_of_mem_text

def Before (ids later : Ids) : Prop := ∃ n, later = ids.after n

variable {ids later latest : Ids}

@[simp] theorem drawnUntil_after (ids : Ids) (n : Nat) :
    ids.drawnUntil (ids.after n) = (List.range' ids.draws.count n).map ids.nth := by
  rw [drawnUntil, after]
  congr 2
  exact Nat.add_sub_cancel_left _ _

@[simp] theorem drawnUntil_self (ids : Ids) : ids.drawnUntil ids = [] := ids.drawnUntil_after 0

@[simp] theorem drawnUntil_draw (ids : Ids) : ids.drawnUntil ids.draw.2 = [ids.draw.1] :=
  ids.drawnUntil_after 1

theorem Before.refl (ids : Ids) : ids.Before ids := ⟨0, rfl⟩

theorem before_draw (ids : Ids) : ids.Before ids.draw.2 := ⟨1, rfl⟩

theorem after_after (ids : Ids) (m n : Nat) : (ids.after m).after n = ids.after (m + n) := by
  simp only [after, Nat.add_assoc]

theorem Before.trans (h : ids.Before later) (h' : later.Before latest) : ids.Before latest := by
  obtain ⟨m, rfl⟩ := h
  obtain ⟨n, rfl⟩ := h'
  exact ⟨m + n, ids.after_after m n⟩

theorem drawnUntil_append (h : ids.Before later) (h' : later.Before latest) :
    ids.drawnUntil latest = ids.drawnUntil later ++ later.drawnUntil latest := by
  obtain ⟨m, rfl⟩ := h
  obtain ⟨n, rfl⟩ := h'
  have rest : (ids.after m).drawnUntil (ids.after (m + n))
      = (List.range' (ids.draws.count + m) n).map ids.nth := by
    rw [← after_after]
    exact (ids.after m).drawnUntil_after n
  rw [after_after, drawnUntil_after, drawnUntil_after, rest, ← List.map_append,
    List.range'_append_1]

end RowQuery.Ids
