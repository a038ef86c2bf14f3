/-!
Lists cut at one element: the first one, or the last one, with some property.
-/

namespace RowQuery

variable {α : Type} {P Q : α → Prop} {a : α} {l : List α}

theorem exists_first_cons :
    (∃ before b after, a :: l = before ++ b :: after ∧ P b ∧ ∀ c ∈ before, Q c) ↔
      P a ∨ Q a ∧ ∃ before b after, l = before ++ b :: after ∧ P b ∧ ∀ c ∈ before, Q c := by
  constructor
  · rintro ⟨before, b, after, split, found, earlier⟩
    cases before with
    | nil =>
      cases split
      exact .inl found
    | cons c before =>
      cases split
      obtain ⟨first, rest⟩ := List.forall_mem_cons.1 earlier
      exact .inr ⟨first, before, b, after, rfl, found, rest⟩
  · rintro (found | ⟨first, before, b, after, rfl, found, rest⟩)
    · exact ⟨[], a, l, rfl, found, List.forall_mem_nil _⟩
    · exact ⟨a :: before, b, after, rfl, found, List.forall_mem_cons.2 ⟨first, rest⟩⟩

theorem exists_last_cons :
    (∃ before b after, a :: l = before ++ b :: after ∧ P b ∧ ∀ c ∈ after, Q c) ↔
      (P a ∧ ∀ c ∈ l, Q c) ∨
      ∃ before b after, l = before ++ b :: after ∧ P b ∧ ∀ c ∈ after, Q c := by
  constructor
  · rintro ⟨before, b, after, split, found, later⟩
    cases before with
    | nil =>
      cases split
      exact .inl ⟨found, later⟩
    | cons c before =>
      cases split
      exact .inr ⟨before, b, after, rfl, found, later⟩
  · rintro (⟨found, later⟩ | ⟨before, b, after, rfl, found, later⟩)
    · exact ⟨[], a, l, rfl, found, later⟩
    · exact ⟨a :: before, b, after, rfl, found, later⟩

theorem exists_first (h : ∃ a ∈ l, P a) :
    ∃ before b after, l = before ++ b :: after ∧ P b ∧ ∀ c ∈ before, ¬ P c := by
  induction l with
  | nil =>
    obtain ⟨a, member, -⟩ := h
    cases member
  | cons a l ih =>
    rw [exists_first_cons]
    rcases Classical.em (P a) with found | skipped
    · exact .inl found
    · obtain ⟨b, member, found⟩ := h
      rcases List.mem_cons.1 member with rfl | member
      · exact absurd found skipped
      · exact .inr ⟨skipped, ih ⟨b, member, found⟩⟩

theorem exists_last (h : ∃ a ∈ l, P a) :
    ∃ before b after, l = before ++ b :: after ∧ P b ∧ ∀ c ∈ after, ¬ P c := by
  induction l with
  | nil =>
    obtain ⟨a, member, -⟩ := h
    cases member
  | cons a l ih =>
    rw [exists_last_cons]
    rcases Classical.em (∃ b ∈ l, P b) with later | none
    · exact .inr (ih later)
    · obtain ⟨b, member, found⟩ := h
      rcases List.mem_cons.1 member with rfl | member
      · exact .inl ⟨found, fun c hc holds => none ⟨c, hc, holds⟩⟩
      · exact absurd ⟨b, member, found⟩ none

end RowQuery
