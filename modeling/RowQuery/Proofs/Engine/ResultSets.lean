import RowQuery.Engine.ResultSets

/-!
The result sets of queries, seen as a map from names to kept rows. Opening the collection does not
change what is seen, and putting an entry into it changes what is seen under the one name.
-/

namespace RowQuery.ResultSets

def persisted? (s : ResultSets) (name : String) : Option Persisted :=
  match s.collections.get? queryCollection with
  | some ⟨.persisted, entries⟩ => NameMap.get? entries name
  | _ => none

def opens (s : ResultSets) : Prop :=
  ∃ entries, (s.openAs .persisted queryCollection).1 = .ok entries

theorem opens_empty : ({} : ResultSets).opens := ⟨.empty, rfl⟩

theorem openAs_of_none {s : ResultSets} (h : s.collections.get? queryCollection = none) :
    s.openAs .persisted queryCollection
      = (.ok .empty, ⟨s.collections.insert queryCollection ⟨.persisted, .empty⟩⟩) := by
  rw [openAs, h]

theorem openAs_of_some {s : ResultSets} {entries : NameMap Persisted}
    (h : s.collections.get? queryCollection = some ⟨.persisted, entries⟩) :
    s.openAs .persisted queryCollection = (.ok entries, s) := by
  rw [openAs, h]
  rfl

theorem openAs_of_other {s : ResultSets} {kind : EntryKind} {entries : NameMap kind.Entry}
    (h : s.collections.get? queryCollection = some ⟨kind, entries⟩) (other : kind ≠ .persisted) :
    s.openAs .persisted queryCollection
      = (.error (.invalid (.otherEntries queryCollection)), s) := by
  rw [openAs, h]
  simp [other]

theorem collection_cases (s : ResultSets) :
    s.collections.get? queryCollection = none ∨
    (∃ entries, s.collections.get? queryCollection = some ⟨.persisted, entries⟩) ∨
    ∃ kind entries, s.collections.get? queryCollection = some ⟨kind, entries⟩ ∧
      kind ≠ .persisted := by
  cases h : s.collections.get? queryCollection with
  | none => exact .inl rfl
  | some found =>
    obtain ⟨kind, entries⟩ := found
    cases kind with
    | persisted => exact .inr (.inl ⟨entries, rfl⟩)
    | text => exact .inr (.inr ⟨.text, entries, rfl, by decide⟩)
    | integer => exact .inr (.inr ⟨.integer, entries, rfl, by decide⟩)

theorem persisted?_of_other {s : ResultSets} {kind : EntryKind} {entries : NameMap kind.Entry}
    (h : s.collections.get? queryCollection = some ⟨kind, entries⟩) (other : kind ≠ .persisted)
    (name : String) : s.persisted? name = none := by
  rw [persisted?, h]
  cases kind with
  | persisted => exact absurd rfl other
  | text => rfl
  | integer => rfl

@[simp] theorem persisted?_openAs (s : ResultSets) (name : String) :
    (s.openAs .persisted queryCollection).2.persisted? name = s.persisted? name := by
  rcases s.collection_cases with h | ⟨entries, h⟩ | ⟨kind, entries, h, other⟩
  · rw [openAs_of_none h, persisted?, persisted?, NameMap.get?_insert, if_pos rfl, h]
    rfl
  · rw [openAs_of_some h]
  · rw [openAs_of_other h other]

theorem opens_openAs (s : ResultSets) :
    (s.openAs .persisted queryCollection).2.opens ↔ s.opens := by
  rcases s.collection_cases with h | ⟨entries, h⟩ | ⟨kind, entries, h, other⟩
  · have opened : s.opens := ⟨.empty, by rw [openAs_of_none h]⟩
    refine iff_of_true ?_ opened
    rw [openAs_of_none h]
    exact ⟨.empty, by rw [openAs_of_some (NameMap.get?_insert _ _ _ _)]⟩
  · rw [openAs_of_some h]
  · rw [openAs_of_other h other]

def view (s : ResultSets) : Prop × (String → Option Persisted) := (s.opens, s.persisted?)

theorem opens_of_view {s t : ResultSets} (h : s.view = t.view) : s.opens ↔ t.opens :=
  iff_of_eq (congrArg Prod.fst h)

theorem persisted?_of_view {s t : ResultSets} (h : s.view = t.view) (name : String) :
    s.persisted? name = t.persisted? name := congrFun (congrArg Prod.snd h) name

theorem view_openAs (s : ResultSets) : (s.openAs .persisted queryCollection).2.view = s.view := by
  rw [view, view, Prod.mk.injEq]
  exact ⟨propext s.opens_openAs, funext s.persisted?_openAs⟩

theorem get?_openAs (s : ResultSets) (name : String) :
    ((s.openAs .persisted queryCollection).1.toOption.bind
      fun entries : NameMap Persisted => entries.get? name)
      = s.persisted? name := by
  rcases s.collection_cases with h | ⟨entries, h⟩ | ⟨kind, entries, h, other⟩
  · rw [openAs_of_none h, persisted?, h]
    rfl
  · rw [openAs_of_some h, persisted?, h]
    rfl
  · rw [openAs_of_other h other, persisted?_of_other h other]
    rfl

/-- Nothing has happened, or at most the collection of the queries was made, with nothing in it. -/
def Untouched (s t : ResultSets) : Prop :=
  t = s ∨ (s.collections.get? queryCollection = none ∧
    t = ⟨s.collections.insert queryCollection ⟨.persisted, .empty⟩⟩)

theorem Untouched.refl (s : ResultSets) : s.Untouched s := .inl rfl

theorem Untouched.trans {s t u : ResultSets} (h : s.Untouched t) (h' : t.Untouched u) :
    s.Untouched u := by
  rcases h with rfl | ⟨missing, rfl⟩
  · exact h'
  · rcases h' with rfl | ⟨missing', -⟩
    · exact .inr ⟨missing, rfl⟩
    · rw [NameMap.get?_insert, if_pos rfl] at missing'
      cases missing'

theorem untouched_openAs (s : ResultSets) :
    s.Untouched (s.openAs .persisted queryCollection).2 := by
  rcases s.collection_cases with h | ⟨entries, h⟩ | ⟨kind, entries, h, other⟩
  · rw [openAs_of_none h]
    exact .inr ⟨h, rfl⟩
  · rw [openAs_of_some h]
    exact .refl s
  · rw [openAs_of_other h other]
    exact .refl s

theorem Untouched.persisted? {s t : ResultSets} (h : s.Untouched t) (name : String) :
    t.persisted? name = s.persisted? name := by
  rcases h with rfl | ⟨missing, rfl⟩
  · rfl
  · have opened := s.persisted?_openAs name
    rwa [openAs_of_none missing] at opened

theorem upsert_of_opens {s : ResultSets} (h : s.opens) (name : String) (entry : Persisted) :
    ∃ entries : NameMap Persisted, (∀ other, entries.get? other = s.persisted? other) ∧
      (s.upsert .persisted queryCollection name entry).collections.get? queryCollection
        = some ⟨.persisted, entries.insert name entry⟩ := by
  obtain ⟨entries, hopen⟩ := h
  refine ⟨entries, fun other => ?_, ?_⟩
  · have seen := s.get?_openAs other
    rwa [hopen] at seen
  · cases hs : s.openAs .persisted queryCollection with
    | mk result opened =>
      rw [hs] at hopen
      cases hopen
      unfold upsert
      rw [hs]
      exact (NameMap.get?_insert _ _ _ _).trans (if_pos rfl)

theorem persisted?_upsert {s : ResultSets} (h : s.opens) (name : String) (entry : Persisted)
    (other : String) :
    (s.upsert .persisted queryCollection name entry).persisted? other
      = if other = name then some entry else s.persisted? other := by
  obtain ⟨entries, same, found⟩ := upsert_of_opens h name entry
  rw [← same, ← NameMap.get?_insert, persisted?, found]

theorem opens_upsert {s : ResultSets} (h : s.opens) (name : String) (entry : Persisted) :
    (s.upsert .persisted queryCollection name entry).opens := by
  obtain ⟨entries, _, found⟩ := upsert_of_opens h name entry
  exact ⟨entries.insert name entry, by rw [openAs_of_some found]⟩

end RowQuery.ResultSets
