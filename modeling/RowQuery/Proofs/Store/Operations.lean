import RowQuery.Proofs.Store.Memory
import RowQuery.Proofs.Store.Names

/-!
A store in memory while it is used: objects are put into it, containers are made, and any number of
writers are open on it at a time. Whatever is done, the paths of its objects carry no slashes at
their ends, and the containers it knows are those that were made.
-/

namespace RowQuery

namespace MemoryStore

/-- Writers are told apart by their numbers, in the order in which they were opened. -/
inductive Operation
  | insert (path : String) (content : Bytes)
  | createContainer (path : String)
  | openWriter (path : String)
  | write (writer : Nat) (content : Bytes)
  | flush (writer : Nat)
  | drop (writer : Nat)

structure InUse where
  store : MemoryStore := {}
  writers : List (Option Writer) := []

namespace InUse

def writer? (u : InUse) (n : Nat) : Option Writer := u.writers[n]?.join

/-- A writer that is dropped makes visible what it still holds. What names no writer changes
nothing. -/
def apply (u : InUse) : Operation → InUse
  | .insert path content => { u with store := u.store.insert path content }
  | .createContainer path => { u with store := u.store.createContainer path }
  | .openWriter path =>
    { store := (u.store.openWriter path).1,
      writers := u.writers ++ [some (u.store.openWriter path).2] }
  | .write n content =>
    match u.writer? n with
    | some w => { u with writers := u.writers.set n (some (w.write content)) }
    | none => u
  | .flush n =>
    match u.writer? n with
    | some w => { u with store := u.store.commit w }
    | none => u
  | .drop n =>
    match u.writer? n with
    | some w => { store := u.store.commit w, writers := u.writers.set n none }
    | none => u

def run (u : InUse) : List Operation → InUse
  | [] => u
  | operation :: rest => run (u.apply operation) rest

variable {u : InUse}

theorem mem_writers {n : Nat} {w : Writer} (h : u.writer? n = some w) : some w ∈ u.writers := by
  rw [writer?, Option.join_eq_some_iff] at h
  exact List.mem_of_getElem? h

/-- Slashes at the ends are gone from the paths of the objects, those that writers are still to make
visible included. -/
structure Normal (u : InUse) : Prop where
  objects : ∀ name ∈ u.store.objects.names, Path.trimSlashes name = name
  writers : ∀ w, some w ∈ u.writers → Path.trimSlashes w.key = w.key

theorem normal_empty : Normal {} where
  objects _ h := nomatch h
  writers _ h := nomatch h

theorem Normal.insertObject (normal : u.Normal) {key : String}
    (trimmed : Path.trimSlashes key = key) (content : Bytes) :
    ∀ name ∈ (u.store.objects.insert key content).names, Path.trimSlashes name = name := by
  intro name h
  obtain ⟨value, found⟩ := NameMap.mem_names.1 h
  rw [NameMap.get?_insert] at found
  split at found
  · next same => rw [same, trimmed]
  · exact normal.objects name (NameMap.mem_names.2 ⟨value, found⟩)

theorem Normal.setWriter (normal : u.Normal) (n : Nat) {w? : Option Writer}
    (trimmed : ∀ w, w? = some w → Path.trimSlashes w.key = w.key) :
    ∀ w, some w ∈ u.writers.set n w? → Path.trimSlashes w.key = w.key := by
  intro w h
  rcases List.mem_or_eq_of_mem_set h with old | new
  · exact normal.writers w old
  · exact trimmed w new.symm

theorem Normal.apply (normal : u.Normal) (operation : Operation) : (u.apply operation).Normal := by
  cases operation with
  | insert path content =>
    exact ⟨normal.insertObject (Path.trimSlashes_trimSlashes path) content, normal.writers⟩
  | createContainer path => exact ⟨normal.objects, normal.writers⟩
  | openWriter path =>
    refine ⟨normal.insertObject (Path.trimSlashes_trimSlashes path) [], fun w h => ?_⟩
    rcases List.mem_append.1 h with old | new
    · exact normal.writers w old
    · rw [Option.some.inj (List.mem_singleton.1 new)]
      exact Path.trimSlashes_trimSlashes path
  | write n content =>
    rw [InUse.apply]
    cases h : u.writer? n with
    | none => exact normal
    | some w =>
      refine ⟨normal.objects, normal.setWriter n fun w' same => ?_⟩
      rw [← Option.some.inj same]
      exact normal.writers w (mem_writers h)
  | flush n =>
    rw [InUse.apply]
    cases h : u.writer? n with
    | none => exact normal
    | some w =>
      exact ⟨normal.insertObject (normal.writers w (mem_writers h)) w.buffer, normal.writers⟩
  | drop n =>
    rw [InUse.apply]
    cases h : u.writer? n with
    | none => exact normal
    | some w =>
      exact ⟨normal.insertObject (normal.writers w (mem_writers h)) w.buffer,
        normal.setWriter n fun _ none => nomatch none⟩

theorem Normal.run (normal : u.Normal) (operations : List Operation) :
    (u.run operations).Normal := by
  induction operations generalizing u with
  | nil => exact normal
  | cons operation operations ih => exact ih (normal.apply operation)

theorem containers_apply (u : InUse) (operation : Operation) :
    (u.apply operation).store.containers =
    match operation with
    | .createContainer path => u.store.containers.insert (Path.trimSlashes path) ()
    | _ => u.store.containers := by
  cases operation with
  | insert | createContainer | openWriter => rfl
  | write n | flush n | drop n =>
    rw [apply]
    cases u.writer? n <;> rfl

end InUse

end MemoryStore

end RowQuery
