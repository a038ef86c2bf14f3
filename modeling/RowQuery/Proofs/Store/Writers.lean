import RowQuery.Proofs.Store.Combining
import RowQuery.Proofs.Store.Hierarchy
import RowQuery.Store

/-!
The life of a writer on a store in memory. What is written with it is found under every spelling of
its path, however often it is flushed. When it is dropped the whole of it is made visible once more,
also where the object was replaced since.
-/

namespace RowQuery

namespace MemoryStore

variable {s : MemoryStore} {w : Writer}

theorem mem_list {container name : String} : name ∈ s.list container ↔ name ∈ s.objects.names ∧
    (Path.trimSlashes container = "" ∨ Path.isBelow (Path.trimSlashes container) name = true) := by
  rw [list, List.mem_filter, Bool.or_eq_true, String.isEmpty_iff]

theorem sorted_list (container : String) : (s.list container).Pairwise (· < ·) :=
  s.objects.sorted_names.filter _

theorem commit_eq_insert (trimmed : Path.trimSlashes w.key = w.key) :
    s.commit w = s.insert w.key w.buffer := by
  rw [commit, insert, trimmed]

inductive Use
  | write (content : Bytes)
  | flush

namespace Use

def operation (n : Nat) : Use → Operation
  | write content => .write n content
  | flush => .flush n

def content : Use → Bytes
  | write content => content
  | flush => []

end Use

namespace InUse

variable {u u' : InUse} {path : String} {buffer : Bytes} {n : Nat}

theorem apply_write (live : u.writer? n = some w) (content : Bytes) :
    u.apply (.write n content)
      = { u with writers := u.writers.set n (some (w.write content)) } := by
  rw [apply, live]

theorem apply_flush (live : u.writer? n = some w) :
    u.apply (.flush n) = { u with store := u.store.commit w } := by
  rw [apply, live]

theorem apply_drop (live : u.writer? n = some w) :
    u.apply (.drop n) = { store := u.store.commit w, writers := u.writers.set n none } := by
  rw [apply, live]

theorem run_append (u : InUse) (operations more : List Operation) :
    u.run (operations ++ more) = (u.run operations).run more := by
  induction operations generalizing u with
  | nil => rfl
  | cons operation operations ih => exact ih (u.apply operation)

def written (u : InUse) (path : String) (uses : List Use) : InUse :=
  u.run (.openWriter path :: uses.map (Use.operation u.writers.length) ++ [.drop u.writers.length])

/-- A writer was opened on a path since `u`, and holds what was written with it. What is visible of
that depends on when it was flushed. -/
structure Writing (u : InUse) (path : String) (buffer : Bytes) (u' : InUse) : Prop where
  store : ∃ visible, u'.store = u.store.insert path visible
  writers : u'.writers = u.writers ++ [some ⟨Path.trimSlashes path, buffer⟩]

namespace Writing

theorem opened (u : InUse) (path : String) : Writing u path [] (u.apply (.openWriter path)) :=
  ⟨⟨[], rfl⟩, rfl⟩

theorem writer? (h : Writing u path buffer u') :
    u'.writer? u.writers.length = some ⟨Path.trimSlashes path, buffer⟩ := by
  rw [InUse.writer?, h.writers, List.getElem?_concat_length]
  rfl

theorem commit (h : Writing u path buffer u') :
    u'.store.commit ⟨Path.trimSlashes path, buffer⟩ = u.store.insert path buffer := by
  obtain ⟨visible, store⟩ := h.store
  rw [store]
  exact u.store.insert_insert path visible buffer

theorem used (h : Writing u path buffer u') (once : Use) :
    Writing u path (buffer ++ once.content) (u'.apply (once.operation u.writers.length)) := by
  cases once with
  | write content =>
    rw [Use.operation, apply_write h.writer?]
    refine ⟨h.store, ?_⟩
    dsimp only
    rw [h.writers, List.set_append_right _ _ (Nat.le_refl _), Nat.sub_self]
    rfl
  | flush =>
    rw [Use.operation, apply_flush h.writer?, Use.content, List.append_nil]
    exact ⟨⟨buffer, h.commit⟩, h.writers⟩

theorem run (h : Writing u path buffer u') (uses : List Use) :
    Writing u path (buffer ++ uses.flatMap Use.content)
      (u'.run (uses.map (Use.operation u.writers.length))) := by
  induction uses generalizing buffer u' with
  | nil =>
    rw [List.flatMap_nil, List.append_nil]
    exact h
  | cons once uses ih =>
    rw [List.flatMap_cons, ← List.append_assoc]
    exact ih (h.used once)

end Writing

theorem store_written (u : InUse) (path : String) (uses : List Use) :
    (u.written path uses).store = u.store.insert path (uses.flatMap Use.content) := by
  have used := (Writing.opened u path).run uses
  rw [written, List.cons_append, InUse.run, run_append, InUse.run, InUse.run,
    apply_drop used.writer?]
  exact used.commit

end InUse

/-- After any operations on an empty store, what a writer has written on the path of a name in a
container is found under every spelling of that path, and the listing of the container has the path
once. Nothing else in the store is touched. -/
theorem read_written (operations : List Operation) (container name : String)
    (named : ∃ c ∈ name.toList, c ≠ '/') (uses : List Use) :
    let u := InUse.run {} operations
    let path := Path.combine container name
    let s := (u.written path uses).store
    (∀ i j, s.read (Path.slashes i ++ path ++ Path.slashes j) = .ok (uses.flatMap Use.content)) ∧
    (s.list container).Pairwise (· < ·) ∧
    (s.list container).count (Path.trimSlashes path) = 1 ∧
    (∀ listed ∈ s.list container, s.objectExists listed = true ∧ Path.trimSlashes listed = listed) ∧
    ∀ other, Path.trimSlashes other ≠ Path.trimSlashes path →
      s.bytes? other = u.store.bytes? other := by
  intro u path s
  have normal : (u.written path uses).Normal := (InUse.normal_empty.run operations).run _
  have store : s = u.store.insert path (uses.flatMap Use.content) := u.store_written path uses
  have stored (i j : Nat) :
      s.bytes? (Path.slashes i ++ path ++ Path.slashes j) = some (uses.flatMap Use.content) := by
    rw [store, bytes?_insert, Path.trimSlashes_around, if_pos rfl]
  have member : Path.trimSlashes path ∈ s.list container := by
    have there : s.objectExists path = true := by
      rw [objectExists, store, bytes?_insert, if_pos rfl, Option.isSome_some]
    refine mem_list.2 ⟨objectExists_iff.1 there, ?_⟩
    rw [Path.trimSlashes_combine container named]
    split
    · next root => exact .inl root
    · exact .inr (Path.isBelow_iff.2 ⟨_, rfl⟩)
  have distinct : (s.list container).Nodup := s.objects.nodup_names.filter _
  refine ⟨fun i j => read_eq_ok.2 (stored i j), sorted_list container,
    distinct.count.trans (if_pos member), ?_, ?_⟩
  · intro listed h
    obtain ⟨there, -⟩ := mem_list.1 h
    have trimmed := normal.objects listed there
    exact ⟨objectExists_iff.2 (trimmed.symm ▸ there), trimmed⟩
  · intro other apart
    rw [store, bytes?_insert, if_neg apart]

theorem read_written_slashes :
    let u := InUse.run {} [.insert "/a/b" [9], .insert "ab" [8], .openWriter "a/c/d"]
    let s :=
      (u.written (Path.combine "//a/" "/b//") [.write [1], .flush, .flush, .write [2, 3]]).store
    (∃ c ∈ "/b//".toList, c ≠ '/') ∧
      (∀ i j, s.read (Path.slashes i ++ Path.combine "//a/" "/b//" ++ Path.slashes j)
        = .ok [1, 2, 3]) ∧
      s.list "//a/" = ["a/b", "a/c/d"] ∧ s.bytes? "ab" = some [8] := by
  intro u s
  have named : ∃ c ∈ "/b//".toList, c ≠ '/' := ⟨'b', by decide, by decide⟩
  obtain ⟨read, -, -, -, others⟩ :=
    read_written [.insert "/a/b" [9], .insert "ab" [8], .openWriter "a/c/d"]
    "//a/" "/b//" named [.write [1], .flush, .flush, .write [2, 3]]
  exact ⟨named, read, by decide, others "ab" (by decide)⟩

namespace InUse

variable {u u' : InUse} {path : String} {buffer : Bytes} {n : Nat}

/-- What is done with other writers, and what is done without one. -/
def Spares (n : Nat) : Operation → Prop
  | .write m _ | .flush m | .drop m => m ≠ n
  | _ => True

/-- A writer is opened or flushed, so that nothing it was given is still to be made visible. -/
def Settles (u : InUse) (n : Nat) : Operation → Prop
  | .openWriter _ => u.writers.length = n
  | .flush m => m = n
  | _ => False

def replaces? (u : InUse) : Operation → Option String
  | .insert path _ | .openWriter path => some (Path.trimSlashes path)
  | .flush n | .drop n => (u.writer? n).map Writer.key
  | .createContainer _ | .write _ _ => none

def replaced (u : InUse) : List Operation → List String
  | [] => []
  | operation :: rest => (u.replaces? operation).toList ++ (u.apply operation).replaced rest

theorem writer?_apply {operation : Operation} (spared : Spares n operation)
    (live : u.writer? n = some w) : (u.apply operation).writer? n = some w := by
  have elsewhere {m : Nat} (other : m ≠ n) (w? : Option Writer) :
      (u.writers.set m w?)[n]?.join = some w := by
    rw [List.getElem?_set_ne other]
    exact live
  cases operation with
  | insert | createContainer => exact live
  | openWriter path =>
    obtain ⟨inside, -⟩ := List.getElem?_eq_some_iff.1 (Option.join_eq_some_iff.1 live)
    exact (congrArg Option.join (List.getElem?_append_left inside)).trans live
  | write m content =>
    rw [apply]
    cases u.writer? m with
    | none => exact live
    | some _ => exact elsewhere spared _
  | flush m =>
    rw [apply]
    cases u.writer? m <;> exact live
  | drop m =>
    rw [apply]
    cases u.writer? m with
    | none => exact live
    | some _ => exact elsewhere spared _

theorem writer?_run {operations : List Operation}
    (spared : ∀ operation ∈ operations, Spares n operation) (live : u.writer? n = some w) :
    (u.run operations).writer? n = some w := by
  induction operations generalizing u with
  | nil => exact live
  | cons operation operations ih =>
    obtain ⟨first, rest⟩ := List.forall_mem_cons.1 spared
    exact ih rest (writer?_apply first live)

theorem get?_apply {operation : Operation} {key : String} (apart : key ∉ u.replaces? operation) :
    (u.apply operation).store.objects.get? key = u.store.objects.get? key := by
  cases operation with
  | insert | openWriter =>
    have other := fun same => apart (congrArg some (Eq.symm same))
    exact (u.store.objects.get?_insert ..).trans (if_neg other)
  | createContainer => rfl
  | write n content =>
    rw [apply]
    cases u.writer? n <;> rfl
  | flush n | drop n =>
    rw [replaces?] at apart
    rw [apply]
    cases h : u.writer? n with
    | none => rfl
    | some w =>
      rw [h] at apart
      have other := fun same => apart (congrArg some (Eq.symm same))
      exact (u.store.objects.get?_insert ..).trans (if_neg other)

theorem get?_run {operations : List Operation} {key : String}
    (apart : key ∉ u.replaced operations) :
    (u.run operations).store.objects.get? key = u.store.objects.get? key := by
  induction operations generalizing u with
  | nil => rfl
  | cons operation operations ih =>
    obtain ⟨first, rest⟩ := not_or.1 (mt List.mem_append.2 apart)
    exact (ih rest).trans (get?_apply fun h => first (Option.mem_toList.2 h))

theorem get?_settled {operation : Operation} (settles : u.Settles n operation)
    (live : (u.apply operation).writer? n = some w) :
    (u.apply operation).store.objects.get? w.key = some w.buffer := by
  have inserted (key : String) (content : Bytes) :
      (u.store.objects.insert key content).get? key = some content :=
    (u.store.objects.get?_insert ..).trans (if_pos rfl)
  cases operation with
  | openWriter path =>
    obtain rfl := settles
    obtain rfl := Option.some.inj ((Writing.opened u path).writer?.symm.trans live)
    exact inserted _ _
  | flush m =>
    obtain rfl := settles
    cases h : u.writer? m with
    | none =>
      rw [apply, h] at live
      cases h.symm.trans live
    | some w' =>
      rw [apply_flush h] at live ⊢
      obtain rfl := Option.some.inj (h.symm.trans live)
      exact inserted _ _
  | insert | createContainer | write | drop => exact settles.elim

end InUse

/-- A writer that was given nothing since it was flushed or opened puts what it holds in the place
of the object when it is dropped, whatever was done to the object by then. So the store stays as it
is exactly when the object still has the content that was made visible, in particular when no one
else gave it another one. -/
theorem drop_settled_writer (before after : List Operation) {settle : Operation}
    {n : Nat} {w : Writer} (settles : (InUse.run {} before).Settles n settle)
    (live : ((InUse.run {} before).apply settle).writer? n = some w)
    (spared : ∀ operation ∈ after, InUse.Spares n operation) :
    let settled := (InUse.run {} before).apply settle
    let u := settled.run after
    let dropped := (u.apply (.drop n)).store
    settled.store.bytes? w.key = some w.buffer ∧
    dropped = u.store.insert w.key w.buffer ∧
    (dropped = u.store ↔ u.store.bytes? w.key = settled.store.bytes? w.key) ∧
    (w.key ∉ settled.replaced after → dropped = u.store) := by
  intro settled u dropped
  have normal : u.Normal := ((InUse.normal_empty.run before).apply settle).run after
  have still : u.writer? n = some w := InUse.writer?_run spared live
  have trimmed : Path.trimSlashes w.key = w.key := normal.writers w (InUse.mem_writers still)
  have visible : settled.store.bytes? w.key = some w.buffer := by
    rw [bytes?, trimmed]
    exact InUse.get?_settled settles live
  have store : dropped = u.store.insert w.key w.buffer := by
    rw [← commit_eq_insert trimmed]
    exact congrArg InUse.store (InUse.apply_drop still)
  have kept : dropped = u.store ↔ u.store.bytes? w.key = settled.store.bytes? w.key := by
    rw [store, visible, insert_eq_self]
  refine ⟨visible, store, kept, fun apart => kept.2 ?_⟩
  rw [bytes?, bytes?, trimmed]
  exact InUse.get?_run apart

theorem drop_settled_writer_replaced :
    let settled := (InUse.run {} [.openWriter "a", .write 0 [1]]).apply (.flush 0)
    let u := settled.run [.openWriter "/a/", .write 1 [2], .drop 1]
    let u' := settled.run [.openWriter "b", .write 1 [2], .insert "a/b" [3]]
    u.store.bytes? "a" = some [2] ∧ (u.apply (.drop 0)).store.bytes? "a" = some [1] ∧
      (u.apply (.drop 0)).store ≠ u.store ∧ (u'.apply (.drop 0)).store = u'.store := by
  intro settled u u'
  have settles : (InUse.run {} [.openWriter "a", .write 0 [1]]).Settles 0 (.flush 0) := rfl
  have live : settled.writer? 0 = some ⟨"a", [1]⟩ := by rfl
  obtain ⟨-, store, kept, -⟩ := drop_settled_writer [.openWriter "a", .write 0 [1]]
    [.openWriter "/a/", .write 1 [2], .drop 1] settles live (by simp [InUse.Spares])
  obtain ⟨-, -, -, alone⟩ := drop_settled_writer [.openWriter "a", .write 0 [1]]
    [.openWriter "b", .write 1 [2], .insert "a/b" [3]] settles live (by simp [InUse.Spares])
  refine ⟨by decide, ?_, fun same => absurd (kept.1 same) (by decide), alone (by decide)⟩
  rw [store, bytes?_insert, if_pos (by rfl)]

end MemoryStore

end RowQuery
