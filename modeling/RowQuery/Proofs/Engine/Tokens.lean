import RowQuery.Engine.Tokens

/-!
Cancellation is final: whatever tokens are made or cancelled later, a cancelled token stays
cancelled. Whether a token is cancelled is found on its way to the root, on which it meets no token
twice.
-/

namespace RowQuery

theorem getElem?_concat {α : Type} (l : List α) (a : α) (i : Nat) :
    (l ++ [a])[i]? = if i = l.length then some a else l[i]? := by
  grind

namespace Tokens

/-- Tokens that were there still are, under the same parents, and those that were cancelled still
are. -/
def Later (t t' : Tokens) : Prop :=
  ∀ (i : Nat) (node : TokenNode), t.nodes[i]? = some node →
    ∃ node', t'.nodes[i]? = some node' ∧ node'.parent = node.parent ∧
      (node.flag = true → node'.flag = true)

variable {t t' t'' : Tokens}

theorem Later.refl (t : Tokens) : t.Later t := fun _ node found => ⟨node, found, rfl, id⟩

theorem later_of_append {more : List TokenNode} (h : t'.nodes = t.nodes ++ more) : t.Later t' := by
  intro i node found
  refine ⟨node, ?_, rfl, id⟩
  rw [h, List.getElem?_append_left (List.getElem?_eq_some_iff.1 found).1, found]

theorem later_root (t : Tokens) : t.Later t.root := later_of_append rfl

theorem later_derive (t : Tokens) (parent : Nat) : t.Later (t.derive parent) := later_of_append rfl

theorem later_cancel (t : Tokens) (token : Nat) : t.Later (t.cancel token) := by
  intro i node found
  have modified : (t.cancel token).nodes[i]?
      = (if token = i then { node with flag := true } else node) := by
    rw [cancel, List.getElem?_modify, found]
    split <;> rfl
  refine ⟨_, modified, ?_, ?_⟩
  · split <;> rfl
  · split <;> simp

theorem isCancelled_of_node {i : Nat} {node : TokenNode} (found : t.nodes[i]? = some node) :
    t.isCancelled i = (node.flag || node.parent.any t.isCancelled) := by
  obtain ⟨bound, rfl⟩ := List.getElem?_eq_some_iff.1 found
  rw [isCancelled, dif_pos bound]
  split
  · next parent => rw [parent, Option.any_none, Bool.or_false]
  · next p parent => rw [parent, Option.any_some]

theorem isCancelled_of_none {i : Nat} (missing : t.nodes[i]? = none) : t.isCancelled i = false := by
  rw [isCancelled, dif_neg (Nat.not_lt.2 (List.getElem?_eq_none_iff.1 missing))]

-- the induction follows the way to the root
theorem Later.isCancelled (h : t.Later t') {i : Nat} (cancelled : t.isCancelled i = true) :
    t'.isCancelled i = true := by
  induction i using Nat.strongRecOn with
  | _ i ih =>
    cases found : t.nodes[i]? with
    | none => simp [isCancelled_of_none found] at cancelled
    | some node =>
      obtain ⟨node', found', parent, flag⟩ := h i node found
      rw [isCancelled_of_node found, Bool.or_eq_true] at cancelled
      rw [isCancelled_of_node found', Bool.or_eq_true, parent]
      refine cancelled.imp flag fun above => ?_
      obtain ⟨p, hp, marked⟩ := (Option.any_eq_true _ _).1 above
      obtain ⟨bound, rfl⟩ := List.getElem?_eq_some_iff.1 found
      exact (Option.any_eq_true _ _).2 ⟨p, hp, ih p (t.parent_lt i bound p hp) marked⟩

variable {i p k : Nat}

def parent? (t : Tokens) (i : Nat) : Option Nat := t.nodes[i]?.bind TokenNode.parent

def flagged (t : Tokens) (i : Nat) : Bool := t.nodes[i]?.any TokenNode.flag

theorem parent?_lt (h : t.parent? i = some p) : p < i := by
  obtain ⟨node, found, parent⟩ := Option.bind_eq_some_iff.1 h
  obtain ⟨bound, rfl⟩ := List.getElem?_eq_some_iff.1 found
  exact t.parent_lt i bound p parent

theorem isCancelled_eq (t : Tokens) (i : Nat) :
    t.isCancelled i = (t.flagged i || (t.parent? i).any t.isCancelled) := by
  cases found : t.nodes[i]? with
  | none => rw [isCancelled_of_none found, flagged, parent?, found]; rfl
  | some node => rw [isCancelled_of_node found, flagged, parent?, found]; rfl

/-- The tokens on the way from one to the root, both ends included. -/
inductive Way (t : Tokens) : Nat → List Nat → Prop
  | root {i : Nat} (alone : t.parent? i = none) : Way t i [i]
  | step {i p : Nat} {rest : List Nat} (parent : t.parent? i = some p) (onward : Way t p rest) :
      Way t i (i :: rest)

theorem Way.le {path : List Nat} (way : t.Way i path) : ∀ j ∈ path, j ≤ i := by
  induction way with
  | root => simp
  | step parent _ ih => exact List.forall_mem_cons.2 ⟨Nat.le_refl _, fun j h =>
    Nat.le_trans (ih j h) (Nat.le_of_lt (parent?_lt parent))⟩

theorem exists_way (t : Tokens) (i : Nat) :
    ∃ path, t.Way i path ∧ path.Pairwise (· > ·) ∧ t.isCancelled i = path.any t.flagged := by
  induction i using Nat.strongRecOn with
  | _ i ih =>
    rw [isCancelled_eq]
    cases parent : t.parent? i with
    | none => exact ⟨[i], .root parent, List.pairwise_singleton _ _, by simp⟩
    | some p =>
      obtain ⟨path, way, descending, answer⟩ := ih p (parent?_lt parent)
      have below : ∀ j ∈ path, i > j :=
        fun j h => Nat.lt_of_le_of_lt (way.le j h) (parent?_lt parent)
      refine ⟨i :: path, .step parent way, .cons below descending, ?_⟩
      rw [Option.any_some, answer, List.any_cons]

@[simp] theorem size_root (t : Tokens) : t.root.size = t.size + 1 := List.length_append

@[simp] theorem size_derive (t : Tokens) (parent : Nat) : (t.derive parent).size = t.size + 1 :=
  List.length_append

@[simp] theorem size_cancel (t : Tokens) (token : Nat) : (t.cancel token).size = t.size :=
  List.length_modify ..

theorem parent?_root (t : Tokens) (i : Nat) :
    t.root.parent? i = if i = t.size then none else t.parent? i := by
  rw [parent?, root, getElem?_concat, ← size]
  exact apply_ite (Option.bind · TokenNode.parent) ..

theorem parent?_derive {t : Tokens} (inside : p < t.size) (i : Nat) :
    (t.derive p).parent? i = if i = t.size then some p else t.parent? i := by
  rw [parent?, derive, getElem?_concat, ← size, if_pos inside]
  exact apply_ite (Option.bind · TokenNode.parent) ..

theorem parent?_cancel (t : Tokens) (token i : Nat) : (t.cancel token).parent? i = t.parent? i := by
  rw [parent?, cancel, List.getElem?_modify, parent?, Option.map_eq_map, Option.bind_map]
  congr 1
  funext node
  rw [Function.comp_apply]
  split <;> rfl

theorem flagged_of_append {node : TokenNode} (h : t'.nodes = t.nodes ++ [node])
    (plain : node.flag = false) (i : Nat) : t'.flagged i = t.flagged i := by
  rw [flagged, flagged, h, getElem?_concat]
  split
  · next last => rw [Option.any_some, plain, last, List.getElem?_eq_none (Nat.le_refl _),
      Option.any_none]
  · rfl

theorem flagged_root (t : Tokens) (i : Nat) : t.root.flagged i = t.flagged i :=
  flagged_of_append rfl rfl i

theorem flagged_derive (t : Tokens) (parent i : Nat) : (t.derive parent).flagged i = t.flagged i :=
  flagged_of_append rfl rfl i

theorem flagged_cancel {t : Tokens} (inside : k < t.size) (i : Nat) :
    (t.cancel k).flagged i = (t.flagged i || decide (i = k)) := by
  rw [flagged, cancel, List.getElem?_modify, flagged]
  by_cases same : k = i
  · subst same
    rw [List.getElem?_eq_getElem inside]
    simp
  · cases t.nodes[i]? with
    | none => simp [Ne.symm same]
    | some node => simp [same, Ne.symm same]

end Tokens

end RowQuery
