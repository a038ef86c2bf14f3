import Mathlib.Data.List.Infix
import RowQuery.Store.Path

/-!
Names without slashes that occur in a path. Trimming slashes and combining paths leave them in it.
-/

namespace RowQuery.Path

def Occurs (name path : String) : Prop := name.toList <:+: path.toList

instance (name path : String) : Decidable (Occurs name path) :=
  inferInstanceAs (Decidable (_ <:+: _))

theorem infix_dropWhile {part cs : List Char} (plain : ∀ c ∈ part, isSlash c = false)
    (h : part <:+: cs) : part <:+: cs.dropWhile isSlash := by
  induction cs with
  | nil => exact h
  | cons c cs ih =>
    rw [List.dropWhile_cons]
    split
    · next slash =>
      rcases List.infix_cons_iff.1 h with start | inside
      · cases part with
        | nil => exact List.nil_infix
        | cons d part =>
          obtain ⟨rfl, -⟩ := List.cons_prefix_cons.1 start
          exact nomatch (plain d List.mem_cons_self).symm.trans slash
      · exact ih inside
    · exact h

theorem infix_dropEndWhile {part cs : List Char} (plain : ∀ c ∈ part, isSlash c = false)
    (h : part <:+: cs) : part <:+: Text.dropEndWhile isSlash cs := by
  have plain' : ∀ c ∈ part.reverse, isSlash c = false := fun c hc => plain c (List.mem_reverse.1 hc)
  have turned := infix_dropWhile plain' (List.reverse_infix.2 h)
  rw [← List.reverse_infix, List.reverse_reverse] at turned
  exact turned

theorem Occurs.of_trimSlashes {name path : String} (h : Occurs name (trimSlashes path)) :
    Occurs name path := by
  have front : path.toList.dropWhile isSlash <:+: path.toList := (List.dropWhile_suffix _).isInfix
  have back (cs : List Char) : Text.dropEndWhile isSlash cs <:+: cs := by
    rw [← List.reverse_infix, Text.dropEndWhile, List.reverse_reverse]
    exact (List.dropWhile_suffix _).isInfix
  rw [Occurs, trimSlashes, String.toList_ofList] at h
  exact (List.IsInfix.trans h (back _)).trans front

variable {name : String} (plain : ∀ c ∈ name.toList, isSlash c = false)
include plain

theorem Occurs.dropSlashes {path : String} (h : Occurs name path) :
    Occurs name (dropSlashes path) := by
  rw [Occurs, Path.dropSlashes, String.toList_ofList]
  exact infix_dropWhile plain h

theorem Occurs.dropEndSlashes {path : String} (h : Occurs name path) :
    Occurs name (dropEndSlashes path) := by
  rw [Occurs, Path.dropEndSlashes, String.toList_ofList]
  exact infix_dropEndWhile plain h

theorem Occurs.trimSlashes {path : String} (h : Occurs name path) :
    Occurs name (trimSlashes path) := by
  rw [Occurs, Path.trimSlashes, String.toList_ofList]
  exact infix_dropEndWhile plain (infix_dropWhile plain h)

theorem Occurs.combine_right {path : String} (h : Occurs name path) (base : String) :
    Occurs name (combine base path) := by
  rw [combine]
  split
  · exact h.dropSlashes plain
  · rw [Occurs, String.toList_append]
    exact (h.dropSlashes plain).trans (List.suffix_append _ _).isInfix

theorem Occurs.combine_left {base : String} (h : Occurs name base) (named : name ≠ "")
    (path : String) : Occurs name (combine base path) := by
  have inside := h.dropEndSlashes plain
  rw [combine]
  split
  · next empty =>
    rw [String.isEmpty_iff.1 empty, Occurs] at inside
    exact absurd (String.toList_eq_nil_iff.1 (List.infix_nil.1 inside)) named
  · rw [Occurs, String.toList_append, String.toList_append, List.append_assoc]
    exact List.IsInfix.trans inside (List.prefix_append _ _).isInfix

end RowQuery.Path
