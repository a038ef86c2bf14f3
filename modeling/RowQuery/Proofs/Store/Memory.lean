import RowQuery.Store.Memory

/-!
Objects that are put into a store in memory. Under one path the last one stays, and under different
paths the order makes no difference.
-/

namespace RowQuery

namespace NameMap

variable {α : Type} (m : NameMap α) (name : String) (value : α)

theorem insert_insert (last : α) : (m.insert name value).insert name last = m.insert name last := by
  apply ext_get?
  intro key
  simp only [get?_insert]
  split <;> rfl

theorem insert_comm {other : String} (apart : name ≠ other) (otherValue : α) :
    (m.insert name value).insert other otherValue
      = (m.insert other otherValue).insert name value := by
  apply ext_get?
  intro key
  simp only [get?_insert]
  split
  · next same => rw [if_neg fun eq => apart (eq.symm.trans same)]
  · rfl

theorem insert_eq_self {m : NameMap α} {name : String} {value : α} :
    m.insert name value = m ↔ m.get? name = some value := by
  constructor
  · intro same
    rw [← same, get?_insert, if_pos rfl]
  · intro found
    apply ext_get?
    intro key
    rw [get?_insert]
    split
    · next same => rw [same, found]
    · rfl

theorem mem_names {m : NameMap α} {name : String} :
    name ∈ m.names ↔ ∃ value, m.get? name = some value := by
  obtain ⟨entries, sorted⟩ := m
  simp only [names, get?]
  clear sorted
  induction entries with
  | nil => simp [findEntry]
  | cons entry rest ih =>
    rw [List.map_cons, List.mem_cons, ih, findEntry]
    split
    · next same => simp [same]
    · next other => simp [other]

end NameMap

namespace MemoryStore

variable (s : MemoryStore) (path : String) (content : Bytes)

theorem insert_insert (last : Bytes) :
    (s.insert path content).insert path last = s.insert path last := by
  simp only [insert, NameMap.insert_insert]

theorem insert_comm {other : String} (apart : Path.trimSlashes path ≠ Path.trimSlashes other)
    (otherContent : Bytes) :
    (s.insert path content).insert other otherContent
      = (s.insert other otherContent).insert path content := by
  simp only [insert, NameMap.insert_comm s.objects _ content apart otherContent]

theorem insert_eq_self {s : MemoryStore} {path : String} {content : Bytes} :
    s.insert path content = s ↔ s.bytes? path = some content := by
  rw [bytes?, ← NameMap.insert_eq_self]
  obtain ⟨objects, containers⟩ := s
  simp [insert]

theorem read_eq_ok {s : MemoryStore} {path : String} {content : Bytes} :
    s.read path = .ok content ↔ s.bytes? path = some content := by
  rw [read]
  cases s.bytes? path <;> simp

def deposit : Option Bytes → MemoryStore
  | none => s
  | some content => s.insert path content

@[simp] theorem deposit_some : s.deposit path (some content) = s.insert path content := rfl

theorem deposit_insert (last : Bytes) (content? : Option Bytes) :
    (s.deposit path content?).insert path last = s.insert path last := by
  cases content? with
  | none => rfl
  | some content => exact s.insert_insert path content last

theorem bytes?_deposit {other : String} (apart : Path.trimSlashes other ≠ Path.trimSlashes path)
    (content? : Option Bytes) : (s.deposit path content?).bytes? other = s.bytes? other := by
  cases content? with
  | none => rfl
  | some content => rw [deposit_some, bytes?_insert, if_neg apart]

theorem get?_deposit {name : String} (apart : name ≠ Path.trimSlashes path)
    (content? : Option Bytes) :
    (s.deposit path content?).objects.get? name = s.objects.get? name := by
  cases content? with
  | none => rfl
  | some content => exact (s.objects.get?_insert _ _ _).trans (if_neg apart)

def insertAll : MemoryStore → List (String × Bytes) → MemoryStore
  | s, [] => s
  | s, (path, content) :: rest => insertAll (s.insert path content) rest

theorem get?_insertAll {entries : List (String × Bytes)} {name : String}
    (apart : ∀ entry ∈ entries, name ≠ Path.trimSlashes entry.1) :
    (s.insertAll entries).objects.get? name = s.objects.get? name := by
  induction entries generalizing s with
  | nil => rfl
  | cons entry entries ih =>
    obtain ⟨head, tail⟩ := List.forall_mem_cons.1 apart
    exact (ih (s.insert entry.1 entry.2) tail).trans
      ((s.objects.get?_insert _ _ _).trans (if_neg head))

theorem bytes?_insertAll {entries : List (String × Bytes)}
    (distinct : (entries.map fun entry => Path.trimSlashes entry.1).Nodup) {entry : String × Bytes}
    (h : entry ∈ entries) : (s.insertAll entries).bytes? entry.1 = some entry.2 := by
  induction entries generalizing s with
  | nil => cases h
  | cons first entries ih =>
    obtain ⟨head, tail⟩ := List.nodup_cons.1 distinct
    rcases List.mem_cons.1 h with rfl | h
    · have stays : ∀ later ∈ entries, Path.trimSlashes entry.1 ≠ Path.trimSlashes later.1 := by
        intro later hlater same
        exact head (List.mem_map.2 ⟨later, hlater, same.symm⟩)
      refine ((s.insert entry.1 entry.2).get?_insertAll stays).trans ?_
      exact (s.bytes?_insert entry.1 entry.1 entry.2).trans (if_pos rfl)
    · exact ih (s.insert first.1 first.2) tail h

end MemoryStore

end RowQuery
