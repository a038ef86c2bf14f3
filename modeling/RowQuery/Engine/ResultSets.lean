import RowQuery.Pipeline.Basic

/-!
Named result sets in collections. The first use of a collection settles what kind of entries it
holds, and a later use for another kind is refused.
-/

namespace RowQuery

inductive EntryKind
  | persisted | text | integer
  deriving DecidableEq

def EntryKind.Entry : EntryKind → Type
  | persisted => Persisted
  | text => String
  | integer => Int64

structure ResultSets where
  collections : NameMap ((kind : EntryKind) × NameMap kind.Entry) := .empty

namespace ResultSets

instance : Inhabited ResultSets := ⟨{}⟩

def queryCollection : String := "result-sets"

def openAs (kind : EntryKind) (collection : String) (s : ResultSets) :
    Except RunError (NameMap kind.Entry) × ResultSets :=
  match s.collections.get? collection with
  | none => (.ok .empty, ⟨s.collections.insert collection ⟨kind, .empty⟩⟩)
  | some ⟨found, entries⟩ =>
    if h : found = kind then (.ok (h ▸ entries), s)
    else (.error (.invalid (.otherEntries collection)), s)

def upsert (kind : EntryKind) (collection name : String) (entry : kind.Entry) (s : ResultSets) :
    ResultSets :=
  match s.openAs kind collection with
  | (.ok entries, s) => ⟨s.collections.insert collection ⟨kind, entries.insert name entry⟩⟩
  | (.error _, s) => s

end ResultSets

end RowQuery
