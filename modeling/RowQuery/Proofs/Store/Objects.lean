import RowQuery.Proofs.Engine.Workspace
import RowQuery.Proofs.Store.Files

/-!
Writing whole objects: an object that was written is read back, and those under other names stay as
they are.
-/

namespace RowQuery

namespace StoreWriter

@[simp] theorem write_file (t : FileTree) (w : FileTree.Writer) (content : Bytes) :
    write (.files t) (file w) content
      = (.files (t.write w content).1, file (t.write w content).2) := rfl

@[simp] theorem flush_file (t : FileTree) (w : FileTree.Writer) :
    flush (.files t) (file w) = (.files (t.flush w).1, file (t.flush w).2) := rfl

end StoreWriter

namespace Store

def mayRefuse : Store → Bool
  | memory _ => false
  | files _ => true

/-- What can be read from a store can still be read from the other one, but perhaps what has certain
last names. -/
structure KeepsBut (names : String → Prop) (s s' : Store) : Prop where
  reads : ∀ {path content}, Path.lastName path ≠ "" → ¬ names (Path.lastName path) →
    s.read path = .ok content →
    s'.read path = .ok content
  refuses : s'.mayRefuse = s.mayRefuse

variable {path name : String} {names names' : String → Prop} {s s' s'' : Store}

namespace KeepsBut

theorem refl (names : String → Prop) (s : Store) : KeepsBut names s s :=
  ⟨fun _ _ found => found, rfl⟩

theorem trans (h : KeepsBut names s s') (h' : KeepsBut names s' s'') : KeepsBut names s s'' where
  reads named other found := h'.reads named other (h.reads named other found)
  refuses := h'.refuses.trans h.refuses

theorem mono (h : KeepsBut names s s') (more : ∀ name, names name → names' name) :
    KeepsBut names' s s' where
  reads named other := h.reads named fun excepted => other (more _ excepted)
  refuses := h.refuses

end KeepsBut

theorem keepsBut_files {t t' : FileTree} {parent : List String}
    (kept : FileTree.KeepsBut (parent ++ [name]) t t') :
    KeepsBut (· = name) (files t) (files t') where
  reads {path content} named other found := by
    change t.read path = .ok content at found
    change t'.read path = .ok content
    obtain ⟨possible, place, walk⟩ := FileTree.read_eq_ok.1 found
    obtain ⟨parent', name', rfl, last, stands⟩ := FileTree.walkAt_file walk
    have lastName : Path.lastName path = name' := by
      rw [Path.lastName, List.getLastD_eq_getLast?, last]; rfl
    refine FileTree.read_eq_ok.2 ⟨possible, parent' ++ [name'], ?_⟩
    have stays : (t.walkAt t.root.place (FileTree.names path)).Stays (parent ++ [name]) := by
      rw [walk]
      refine .file content fun same => ?_
      have names : name' = name := List.singleton_inj.1 (List.append_inj_right' same rfl)
      exact other (lastName.trans names)
    rw [kept.root, kept.walkAt_eq stays, walk]
  refuses := rfl

theorem put_files {t made : FileTree} {there : Bool}
    (h : t.makeDirectories (FileTree.steps (FileTree.names path)).dropLast = (made, there))
    (content : Bytes) :
    (∃ parent t', there = true ∧ made.Takes path parent ∧
      put path content (files t) = (.ok (), files t') ∧
      t'.read path = .ok content ∧ FileTree.ChangesAt (parent ++ [Path.lastName path]) made t') ∨
    ((there = true → ∀ parent, ¬ made.Takes path parent) ∧
      put path content (files t) = (.error .store, files made)) := by
  rcases FileTree.openWriter_cases h with ⟨parent, there, takes, opened⟩ | ⟨refuses, refused⟩
  · have opened' : openWriter path (files t)
      = (.ok (.file { place := parent ++ [Path.lastName path] }),
        files (made.set (parent ++ [Path.lastName path]) (.file []))) := by
      rw [openWriter, opened]
      rfl
    have written := takes.opened.write content
    cases hw : (made.set (parent ++ [Path.lastName path]) (.file [])).write
        { place := parent ++ [Path.lastName path] } content with
    | mk t₁ w₁ =>
      rw [List.nil_append, hw] at written
      have flushed := written.flush.1
      cases hf : t₁.flush w₁ with
      | mk t₂ w₂ =>
        rw [hf] at flushed
        obtain ⟨closed, empty⟩ := flushed.flush
        cases hc : t₂.flush w₂ with
        | mk t₃ w₃ =>
          rw [hc] at closed empty
          obtain ⟨content', stands, -, taken⟩ := closed.stands
          dsimp only at stands taken empty
          rw [empty, List.append_nil] at taken
          have reached := takes.toLeadsTo.keep
            (closed.changes.keepsBut (FileTree.lastName_ne_root path))
          refine .inl ⟨parent, t₃, there, takes, ?_, reached.read (taken ▸ stands), closed.changes⟩
          rw [put, run_bind_ok opened', run_modify]
          simp [StoreWriter.close, hw, hf, hc]
  · refine .inr ⟨refuses, ?_⟩
    have refused' : openWriter path (files t) = (.error .store, files made) := by
      rw [openWriter, refused]
      rfl
    rw [put, run_bind_error refused']

theorem put_memory (s : MemoryStore) (path : String) (content : Bytes) :
    put path content (memory s)
      = (.ok (), memory (((s.insert path []).insert path content).insert path content)) := rfl

theorem keepsBut_insert (s : MemoryStore) (named : Path.lastName path ≠ "") (content : Bytes) :
    KeepsBut (· = Path.lastName path) (memory s) (memory (s.insert path content)) where
  reads {other content'} named' different found := by
    change s.read other = .ok content' at found
    change (s.insert path content).read other = .ok content'
    have apart : Path.trimSlashes other ≠ Path.trimSlashes path := fun same =>
      different (Path.lastName_congr named' named same)
    rw [MemoryStore.read, MemoryStore.bytes?_insert, if_neg apart]
    exact found
  refuses := rfl

/-- An object that is written is there and its content can be read; otherwise the system has
refused. -/
theorem put_cases (s : Store) (named : Path.lastName path ≠ "") (content : Bytes) :
    KeepsBut (· = Path.lastName path) s (put path content s).2 ∧
      (((put path content s).1 = .ok () ∧ (put path content s).2.read path = .ok content) ∨
        ((put path content s).1 = .error .store ∧ s.mayRefuse = true)) := by
  cases s with
  | memory s =>
    rw [put_memory]
    refine ⟨?_, .inl ⟨rfl, ?_⟩⟩
    · have opened := keepsBut_insert s named []
      have flushed := opened.trans (keepsBut_insert _ named content)
      exact flushed.trans (keepsBut_insert _ named content)
    · change MemoryStore.read _ path = _
      rw [MemoryStore.read, MemoryStore.bytes?_insert, if_pos rfl]
  | files t =>
    cases hm : t.makeDirectories (FileTree.steps (FileTree.names path)).dropLast with
    | mk made there =>
      have kept (parent : List String) :
          FileTree.KeepsBut (parent ++ [Path.lastName path]) t made := by
        rw [← show (t.makeDirectories _).1 = made from congrArg Prod.fst hm]
        exact FileTree.keepsBut_makeAll (FileTree.below_names path).parent _ _
      rcases put_files hm content with ⟨parent, t', -, -, written, read, changes⟩ | ⟨-, refused⟩
      · rw [written]
        have keeps := (kept parent).trans (changes.keepsBut (FileTree.lastName_ne_root path))
        exact ⟨keepsBut_files keeps, .inl ⟨rfl, read⟩⟩
      · rw [refused]
        exact ⟨keepsBut_files (kept []), .inr ⟨rfl, rfl⟩⟩

theorem createContainer_cases (s : Store) (path : String) :
    (createContainer path s).2.mayRefuse = s.mayRefuse ∧
      ((createContainer path s).1 = .ok () ∨
        ((createContainer path s).1 = .error .store ∧ s.mayRefuse = true)) := by
  cases s with
  | memory s => exact ⟨rfl, .inl rfl⟩
  | files t =>
    rw [createContainer, FileTree.createContainer]
    cases t.makeDirectories (FileTree.names path) with
    | mk t' made =>
      cases made with
      | true => exact ⟨rfl, .inl rfl⟩
      | false => exact ⟨rfl, .inr ⟨rfl, rfl⟩⟩

end Store

end RowQuery
