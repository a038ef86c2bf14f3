import RowQuery.Proofs.Engine.Ids
import RowQuery.Proofs.Pipeline.Segment
import RowQuery.Proofs.Pipeline.Writing

/-!
Rows that are kept come back part by part: from memory always, from segments when all their values
have a form in JSON.
-/

namespace RowQuery

namespace Segment

section Written

variable {store : Store} {parts : List (List Row)} {segments : List Segment}
  (h : List.Forall₂ (fun part segment => WrittenIn store part (.ok segment)) parts segments)
include h

theorem sum_rows : (segments.map Segment.rows).sum = parts.flatten.length := by
  induction h with
  | nil => rfl
  | cons written _ ih =>
    rw [List.map_cons, List.sum_cons, List.flatten_cons, List.length_append, ih, written.2.2]

theorem map_load (back : ∀ part ∈ parts, ∀ row ∈ part, row.ReadsBack) :
    (segments.map fun segment => segment.load store)
      = parts.map fun part => if part.all Row.isSpellable then .ok part
        else .error .unreadableSegment := by
  induction h with
  | nil => rfl
  | cons written _ ih =>
    obtain ⟨head, tail⟩ := List.forall_mem_cons.1 back
    rw [List.map_cons, List.map_cons, ih tail, load_written head written.1 written.2.1]

theorem part_of_mem {segment : Segment} (hmem : segment ∈ segments) :
    ∃ part, WrittenIn store part (.ok segment) := by
  induction h with
  | nil => cases hmem
  | cons written _ ih =>
    rcases List.mem_cons.1 hmem with rfl | hmem
    · exact ⟨_, written⟩
    · exact ih hmem

end Written

end Segment

theorem gather_guard {ε α : Type} (p : α → Bool) (e : ε) (l : List α) :
    Jobs.gather (l.map fun a => if p a then .ok a else .error e) = if l.all p then .ok l
      else .error e := by
  induction l with
  | nil => rfl
  | cons a l ih =>
    rw [List.map_cons, List.all_cons]
    cases p a with
    | false => rfl
    | true =>
      rw [if_pos rfl, Jobs.gather, ih]
      cases l.all p <;> rfl

namespace Persisted

variable (store : Store) (parallelism : Nat)

theorem partitions_memory (parts : List (List Row)) :
    (memory parts parallelism).pipeline.partitions store = .ok parts := by
  have evaluated : ((parts.map SourceUnit.rows).map fun unit : SourceUnit => unit.evaluate store [])
      = parts.map .ok := by
    rw [List.map_map]
    rfl
  change Jobs.gather
    ((parts.map SourceUnit.rows).map fun unit : SourceUnit => unit.evaluate store []) = _
  rw [evaluated, Jobs.gather_map_ok]

theorem rows_memory (parts : List (List Row)) :
    (memory parts parallelism).pipeline.rows store = .ok parts.flatten := by
  rw [Pipeline.rows, partitions_memory]
  rfl

theorem partitions_disk (segments : List Segment) :
    (disk segments parallelism).pipeline.partitions store
      = Jobs.gather (segments.map fun segment => segment.load store) := by
  have evaluated :
      ((segments.map SourceUnit.segment).map fun unit : SourceUnit => unit.evaluate store [])
      = segments.map fun segment => segment.load store := by
    rw [List.map_map]
    apply List.map_congr_left
    intro segment _
    change (do runStages [] (← segment.load store)) = segment.load store
    cases segment.load store <;> rfl
  change Jobs.gather
    ((segments.map SourceUnit.segment).map fun unit : SourceUnit => unit.evaluate store []) = _
  rw [evaluated]

theorem partitions_written {store : Store} {parts : List (List Row)} {segments : List Segment}
    (h : List.Forall₂ (fun part segment => Segment.WrittenIn store part (.ok segment))
      parts segments)
    (back : ∀ row ∈ parts.flatten, row.ReadsBack) :
    (disk segments parallelism).pipeline.partitions store
      = if parts.flatten.all Row.isSpellable then .ok parts else .error .unreadableSegment := by
  have split : ∀ part ∈ parts, ∀ row ∈ part, row.ReadsBack := fun part hpart row hrow =>
    back row (List.mem_flatten_of_mem hpart hrow)
  rw [partitions_disk, Segment.map_load h split, gather_guard, List.all_flatten]

end Persisted

theorem persist_memory (persistDir : String) (p : Pipeline) (w : Workspace) :
    p.persist persistDir .memory w = match p.partitions w.store with
      | .ok parts => (.ok (.memory parts p.parallelism), w)
      | .error e => (.error e, w) := by
  have reads :
      (ExceptT.mk do return p.partitions (← get).store : Action RunError (List (List Row))) w
      = (p.partitions w.store, w) := rfl
  rw [Pipeline.persist, run_bind, reads]
  cases p.partitions w.store <;> rfl

theorem lastName_drawn (ids : Ids) (persistDir : String) :
    Path.lastName (Path.combine persistDir ids.draw.1) ≠ "" := by
  have plain : ∀ c ∈ ids.draw.1.toList, Path.isSlash c = false := Ids.isSlash_of_mem_text
  rw [Path.lastName_combine plain]
  exact Ids.text_ne_empty _

theorem persist_disk (persistDir : String) (p : Pipeline) {w : Workspace} {parts : List (List Row)}
    (computed : p.partitions w.store = .ok parts) :
    (Segment.HasRoom w.store (Path.combine persistDir w.ids.draw.1) parts.length ∧
      ∃ segments w', p.persist persistDir .disk w = (.ok (.disk segments p.parallelism), w') ∧
        List.Forall₂ (fun part segment => Segment.WrittenIn w'.store part (.ok segment))
          parts segments) ∨
    (¬ Segment.HasRoom w.store (Path.combine persistDir w.ids.draw.1) parts.length ∧
      ∃ w', p.persist persistDir .disk w = (.error (.data .store), w')) := by
  have reads :
      (ExceptT.mk do return p.partitions (← get).store : Action RunError (List (List Row))) w
      = (.ok parts, w) := congrArg (·, w) computed
  have drew : (liftM Workspace.drawId : Action RunError String) w
      = (.ok w.ids.draw.1, { w with ids := w.ids.draw.2 }) := rfl
  rw [Pipeline.persist, run_bind_ok reads]
  dsimp only
  rw [run_bind_ok drew]
  have outcome := (w.store.createContainer_cases (Path.combine persistDir w.ids.draw.1)).2
  cases hc : Store.createContainer (Path.combine persistDir w.ids.draw.1) w.store with
  | mk result store =>
    rw [hc] at outcome
    have created : Workspace.onStore (Store.createContainer (Path.combine persistDir w.ids.draw.1))
        { w with ids := w.ids.draw.2 }
          = (onData result, { w with ids := w.ids.draw.2, store }) := by
      rw [Workspace.onStore, hc]
    rcases outcome with rfl | ⟨rfl, -⟩
    · rw [run_bind_ok created]
      have named := lastName_drawn w.ids persistDir
      rcases Segment.runAll_writeAll named
          (w := { w with ids := w.ids.draw.2, store }) hc parts with
        ⟨room, segments, w', ran, written⟩ | ⟨full, w', ran⟩
      · rw [run_bind_ok ran]
        exact .inl ⟨room, segments, w', rfl, written⟩
      · rw [run_bind_error ran]
        exact .inr ⟨full, w', rfl⟩
    · rw [run_bind_error created]
      refine .inr ⟨fun room => ?_, _, rfl⟩
      have made := room.1
      rw [hc] at made
      cases made

theorem persist_disk_ok {persistDir : String} {p : Pipeline} {w w' : Workspace} {kept : Persisted}
    (persisted : p.persist persistDir .disk w = (.ok kept, w')) :
    ∃ parts segments, kept = .disk segments p.parallelism ∧
      List.Forall₂ (fun part segment => Segment.WrittenIn w'.store part (.ok segment)) parts
        segments := by
  cases hp : p.partitions w.store with
  | error e =>
    have reads :
        (ExceptT.mk do return p.partitions (← get).store : Action RunError (List (List Row))) w
        = (.error e, w) := congrArg (·, w) hp
    rw [Pipeline.persist, run_bind_error reads] at persisted
    cases persisted
  | ok parts =>
    rcases persist_disk persistDir p hp with ⟨_, segments, _, ran, written⟩ | ⟨_, _, failed⟩
    · cases ran.symm.trans persisted
      exact ⟨parts, segments, rfl, written⟩
    · cases failed.symm.trans persisted

/-- The rows of a pipeline that are kept in memory come back part by part. Those for which there is
room on disk, as there always is in a store in memory, are kept; where the texts of their doubles
are read as these doubles, they come back exactly when no value of them is a double that is no
number. -/
theorem persist_reads_back {p : Pipeline} {w : Workspace} {rows : List Row}
    (computed : p.rows w.store = .ok rows) (persistDir : String) :
    ∃ parts, p.partitions w.store = .ok parts ∧ parts.flatten = rows ∧
      (∃ kept, p.persist persistDir .memory w = (.ok kept, w) ∧ kept.rowCount = rows.length ∧
        ∀ store, kept.pipeline.partitions store = .ok parts ∧ kept.pipeline.rows store = .ok rows) ∧
      (Segment.HasRoom w.store (Path.combine persistDir w.ids.draw.1) parts.length →
        ∃ kept w', p.persist persistDir .disk w = (.ok kept, w') ∧ kept.rowCount = rows.length ∧
          ((∀ row ∈ rows, row.ReadsBack) →
            (kept.pipeline.partitions w'.store
              = if rows.all Row.isSpellable then .ok parts else .error .unreadableSegment) ∧
            (kept.pipeline.rows w'.store
              = if rows.all Row.isSpellable then .ok rows else .error .unreadableSegment))) ∧
      (¬ Segment.HasRoom w.store (Path.combine persistDir w.ids.draw.1) parts.length →
        ∃ w', p.persist persistDir .disk w = (.error (.data .store), w')) ∧
      ∀ s, w.store = .memory s →
        Segment.HasRoom w.store (Path.combine persistDir w.ids.draw.1) parts.length := by
  rw [Pipeline.rows] at computed
  cases hp : p.partitions w.store with
  | error e =>
    rw [hp] at computed
    cases computed
  | ok parts =>
    rw [hp] at computed
    cases computed
    refine ⟨parts, rfl, rfl, ⟨.memory parts p.parallelism, ?_, ?_, fun store => ⟨?_, ?_⟩⟩, ?_,
      fun full => ?_, ?_⟩
    · rw [persist_memory, hp]
    · exact List.length_flatten.symm
    · exact Persisted.partitions_memory store p.parallelism parts
    · exact Persisted.rows_memory store p.parallelism parts
    · intro room
      obtain ⟨-, segments, w', persisted, written⟩ :=
        (persist_disk persistDir p hp).resolve_right fun h => h.1 room
      refine ⟨_, w', persisted, Segment.sum_rows written, fun back => ?_⟩
      have read := Persisted.partitions_written p.parallelism written back
      refine ⟨read, ?_⟩
      rw [Pipeline.rows, read]
      cases parts.flatten.all Row.isSpellable <;> rfl
    · exact ((persist_disk persistDir p hp).resolve_left fun h => full h.1).2
    · intro s memory
      rw [memory]
      exact Segment.hasRoom_memory s _ _

theorem persist_reads_back_finite_or_not :
    let row (x : Binary64) : Row := NameMap.empty.insert "x" (.float x)
    let finite := [[row ⟨0x3fe0000000000000⟩], [], [row .zero]]
    let other := [[row .nan]]
    let inMemory : Workspace := { store := .memory {} }
    let inFiles : Workspace := { store := .files {} }
    (Pipeline.new (.memory finite) 3).rows inMemory.store = .ok finite.flatten ∧
      (∃ kept w', (Pipeline.new (.memory finite) 3).persist "kept" .disk inMemory = (.ok kept, w') ∧
        kept.rowCount = 2 ∧
        kept.pipeline.partitions w'.store = .ok finite) ∧
      (Pipeline.new (.memory other) 1).rows inFiles.store = .ok other.flatten ∧
      ∃ kept w', (Pipeline.new (.memory other) 1).persist "kept" .disk inFiles = (.ok kept, w') ∧
        kept.rowCount = 1 ∧
        kept.pipeline.rows w'.store = .error .unreadableSegment := by
  intro row finite other inMemory inFiles
  have computed : (Pipeline.new (.memory finite) 3).rows inMemory.store = .ok finite.flatten := rfl
  have computed' : (Pipeline.new (.memory other) 1).rows inFiles.store = .ok other.flatten := rfl
  obtain ⟨parts, split, -, -, disk, -, memory⟩ := persist_reads_back computed "kept"
  obtain ⟨parts', split', -, -, disk', -, -⟩ := persist_reads_back computed' "kept"
  cases split
  cases split'
  refine ⟨computed, ?_, computed', ?_⟩
  · obtain ⟨kept, w', persisted, count, read⟩ := disk (memory _ rfl)
    have half : (⟨0x3fe0000000000000⟩ : Binary64).ReadsBack :=
      Json.Reader.readsBack_of_short (by decide) (by decide +kernel)
    have zero : Binary64.zero.ReadsBack :=
      Json.Reader.readsBack_of_short (by decide) (by decide +kernel)
    have back : ∀ row ∈ finite.flatten, row.ReadsBack := by
      change ∀ r ∈ [row ⟨0x3fe0000000000000⟩, row .zero], r.ReadsBack
      rw [List.forall_mem_cons, List.forall_mem_singleton]
      exact ⟨Row.readsBack_empty.insert "x" fun _ => half,
        Row.readsBack_empty.insert "x" fun _ => zero⟩
    exact ⟨kept, w', persisted, count, (read back).1⟩
  · have room : Segment.HasRoom inFiles.store (Path.combine "kept" inFiles.ids.draw.1) 1 := by
      decide +kernel
    obtain ⟨kept, w', persisted, count, read⟩ := disk' room
    have back : ∀ row ∈ other.flatten, row.ReadsBack := by
      change ∀ r ∈ [row .nan], r.ReadsBack
      rw [List.forall_mem_singleton]
      exact Row.readsBack_empty.insert "x" (by rintro ⟨⟩)
    exact ⟨kept, w', persisted, count, (read back).2⟩

end RowQuery
