import RowQuery.Proofs.Engine.Workspace
import RowQuery.Proofs.Pipeline.Segment

/-!
Loading a segment from a store that may have changed since the segment was written: an object that
is gone and one with other bytes are told apart, and rows that are given are the rows that were
written.
-/

namespace RowQuery

theorem Store.read_cases (s : Store) (path : String) :
    (s.objectExists path = false ∧ s.read path = .error (.notFound path)) ∨
      (s.objectExists path = true ∧ ∃ content, s.read path = .ok content) := by
  cases s with
  | memory s =>
    rw [read, objectExists, MemoryStore.read, MemoryStore.objectExists]
    cases s.bytes? path with
    | none => exact .inl ⟨rfl, rfl⟩
    | some content => exact .inr ⟨rfl, content, rfl⟩
  | files t =>
    rw [read, objectExists, FileTree.read, FileTree.objectExists]
    split
    · next place content _ => exact .inr ⟨rfl, content, rfl⟩
    · exact .inl ⟨rfl, rfl⟩

namespace Segment

variable {path : String} {rows : List Row} {segment : Segment} {store before after : Store}

theorem write_eq_ok (written : write path rows before = (.ok segment, after)) :
    segment = ⟨path, Blake3.hash (encode rows), rows.length⟩ := by
  rw [write] at written
  cases hp : Store.put path (encode rows) before with
  | mk result s =>
    cases result with
    | error e =>
      rw [run_bind_error hp] at written
      cases written
    | ok _ =>
      rw [run_bind_ok hp] at written
      cases written
      rfl

theorem load_of_missing (missing : store.objectExists segment.path = false) :
    segment.load store = .error (.data (.notFound segment.path)) := by
  rcases store.read_cases segment.path with ⟨_, read⟩ | ⟨there, _⟩
  · rw [load, read]
    rfl
  · cases missing.symm.trans there

theorem load_of_changed {content : Bytes} (read : store.read segment.path = .ok content)
    (sum : Blake3.hash content ≠ segment.checksum) :
    segment.load store = .error (.corrupt segment.path) := by
  simp only [load, read, onData, bind, Except.bind, if_neg sum]
  rfl

/-- The rows that were written come back as they were, or a failure says why not: the object is
gone, its bytes have another checksum, or a value of the rows is a double that is no number. -/
theorem load_only_what_was_written (written : write path rows before = (.ok segment, after))
    (store : Store)
    (noCollision : ∀ content, store.read path = .ok content →
      Blake3.hash content = Blake3.hash (encode rows) → content = encode rows) :
    segment.path = path ∧ segment.checksum = Blake3.hash (encode rows) ∧
      (store.objectExists path = false → segment.load store = .error (.data (.notFound path))) ∧
      (store.objectExists path = true → ∃ content, store.read path = .ok content ∧
        (Blake3.hash content ≠ segment.checksum → segment.load store = .error (.corrupt path)) ∧
        (Blake3.hash content = segment.checksum → (∀ row ∈ rows, row.ReadsBack) →
          segment.load store
            = if rows.all Row.isSpellable then .ok rows else .error .unreadableSegment)) ∧
      ((∀ row ∈ rows, row.ReadsBack) →
        ∀ loaded, segment.load store = .ok loaded → loaded = rows) := by
  have place : segment.path = path := by rw [write_eq_ok written]
  have sum : segment.checksum = Blake3.hash (encode rows) := by rw [write_eq_ok written]
  subst place
  have found (content : Bytes) (read : store.read segment.path = .ok content)
      (same : Blake3.hash content = segment.checksum) (back : ∀ row ∈ rows, row.ReadsBack) :
      segment.load store = if rows.all Row.isSpellable then .ok rows
        else .error .unreadableSegment := by
    rw [noCollision content read (same.trans sum)] at read
    exact load_written back read sum
  refine ⟨rfl, sum, load_of_missing, fun there => ?_, fun back loaded ok => ?_⟩
  · rcases store.read_cases segment.path with ⟨missing, _⟩ | ⟨_, content, read⟩
    · cases there.symm.trans missing
    · exact ⟨content, read, load_of_changed read, found content read⟩
  · rcases store.read_cases segment.path with ⟨missing, _⟩ | ⟨_, content, read⟩
    · cases (load_of_missing missing).symm.trans ok
    · rcases Decidable.em (Blake3.hash content = segment.checksum) with same | changed
      · rw [found content read same back] at ok
        split at ok
        · exact (Except.ok.inj ok).symm
        · cases ok
      · cases (load_of_changed read changed).symm.trans ok

theorem load_only_what_was_written_kinds :
    let row (a b : Value) : Row := (NameMap.empty.insert "a" a).insert "b" b
    let rows := [.empty, row (.int 1) (.float ⟨0x3ff0000000000000⟩), row (.text "") (.bytes [])]
    let kept (content : Bytes) : Store := .memory (({} : MemoryStore).insert "s" content)
    ∃ segment after, write "s" rows (.memory {}) = (.ok segment, after) ∧
      segment.load (.memory {}) = .error (.data (.notFound "s")) ∧
      segment.load (kept []) = .error (.corrupt "s") ∧
      segment.load (kept (encode rows)) = .ok rows := by
  intro row rows kept
  have written : write "s" rows (.memory {}) = (.ok ⟨"s", Blake3.hash (encode rows), 3⟩, _) := rfl
  refine ⟨_, _, written, ?_, ?_, ?_⟩
  · exact (load_only_what_was_written written (.memory {}) (by rintro _ ⟨⟩)).2.2.1 rfl
  · have differs : Blake3.hash [] ≠ Blake3.hash (encode rows) := by decide +kernel
    obtain ⟨content, read, changed, -⟩ := (load_only_what_was_written written (kept []) (by
      rintro _ ⟨⟩ same
      exact absurd same differs)).2.2.2.1 rfl
    cases read
    exact changed differs
  · obtain ⟨content, read, -, loaded⟩ :=
      (load_only_what_was_written written (kept (encode rows)) (by
      rintro _ ⟨⟩ _
      rfl)).2.2.2.1 rfl
    cases read
    have one : (⟨0x3ff0000000000000⟩ : Binary64).ReadsBack :=
      Json.Reader.readsBack_of_short (by decide) (by decide +kernel)
    have both {a b : Value} (ha : a.ReadsBack) (hb : b.ReadsBack) : (row a b).ReadsBack :=
      (Row.readsBack_empty.insert "a" ha).insert "b" hb
    have back : ∀ row ∈ rows, row.ReadsBack := by
      rw [List.forall_mem_cons, List.forall_mem_cons, List.forall_mem_singleton]
      exact ⟨Row.readsBack_empty, both trivial fun _ => one, both trivial trivial⟩
    exact (loaded rfl back).trans (if_pos (by decide +kernel))

end Segment

end RowQuery
