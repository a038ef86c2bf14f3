import RowQuery.Proofs.Query.Folder
import RowQuery.Proofs.Query.Session

/-!
What statements leave alone. In a store in memory they add objects under paths that have a new
identifier in them, and change no other one.
-/

namespace RowQuery

/-- In a store in memory everything stays, but perhaps the objects that have one of some identifiers
in their path. -/
def Store.Spares (ids : List String) (store store' : Store) : Prop :=
  ∀ s, store = .memory s → ∃ s', store' = .memory s' ∧
    ∀ name, (∀ id ∈ ids, ¬ Path.Occurs id name) → s'.objects.get? name = s.objects.get? name

namespace Store.Spares

variable {ids ids' : List String} {store store' store'' : Store}

theorem refl (ids : List String) (store : Store) : Spares ids store store :=
  fun s memory => ⟨s, memory, fun _ _ => rfl⟩

theorem trans (h : Spares ids store store') (h' : Spares ids' store' store'') :
    Spares (ids ++ ids') store store'' := by
  intro s memory
  obtain ⟨s', memory', same⟩ := h s memory
  obtain ⟨s'', memory'', same'⟩ := h' s' memory'
  refine ⟨s'', memory'',
    fun name apart => (same' name fun id hid => ?_).trans (same name fun id hid => ?_)⟩
  · exact apart id (List.mem_append_right _ hid)
  · exact apart id (List.mem_append_left _ hid)

theorem mono (h : Spares ids store store') (more : ∀ id ∈ ids, id ∈ ids') :
    Spares ids' store store' := by
  intro s memory
  obtain ⟨s', memory', same⟩ := h s memory
  exact ⟨s', memory', fun name apart => same name fun id hid => apart id (more id hid)⟩

theorem chain (h : Spares ids store store') (h' : Spares ids store' store'') :
    Spares ids store store'' :=
  (h.trans h').mono fun _ hid => or_self_iff.1 (List.mem_append.1 hid)

theorem deposit {id path : String} (plain : ∀ c ∈ id.toList, Path.isSlash c = false)
    (occurs : Path.Occurs id path) (s : MemoryStore) (content? : Option Bytes) :
    Spares [id] (.memory s) (.memory (s.deposit path content?)) := by
  rintro _ ⟨⟩
  refine ⟨_, rfl, fun name apart => s.get?_deposit path ?_ content?⟩
  rintro rfl
  exact apart id List.mem_cons_self (occurs.trimSlashes plain)

theorem createContainer (store : Store) (path : String) :
    Spares [] store (Store.createContainer path store).2 := by
  rintro s rfl
  exact ⟨s.createContainer path, rfl, fun _ _ => rfl⟩

theorem put {id path : String} (plain : ∀ c ∈ id.toList, Path.isSlash c = false)
    (occurs : Path.Occurs id path) (store : Store) (content : Bytes) :
    Spares [id] store (Store.put path content store).2 := by
  rintro s rfl
  rw [Store.put_memory, MemoryStore.insert_insert, MemoryStore.insert_insert]
  exact deposit plain occurs s (some content) s rfl

end Store.Spares

/-- In a store in memory an action changes no object but those that have one of the identifiers in
their path that it draws. -/
def Workspace.Spares (w w' : Workspace) : Prop :=
  ∀ s, w.store = .memory s → w.ids.Before w'.ids ∧ w.store.Spares (w.ids.drawnUntil w'.ids) w'.store

namespace Workspace.Spares

variable {w w' w'' : Workspace}

theorem of_eq (ids : w'.ids = w.ids) (store : w'.store = w.store) : w.Spares w' := by
  intro s _
  rw [ids, store]
  exact ⟨.refl _, .refl _ _⟩

theorem trans (h : w.Spares w') (h' : w'.Spares w'') : w.Spares w'' := by
  intro s memory
  obtain ⟨before, spares⟩ := h s memory
  obtain ⟨s', memory', -⟩ := spares s memory
  obtain ⟨before', spares'⟩ := h' s' memory'
  refine ⟨before.trans before', ?_⟩
  rw [Ids.drawnUntil_append before before']
  exact spares.trans spares'

theorem forFiles (context : QueryContext) {s : MemoryStore} (store : w.store = .memory s)
    (folder : String) : w.Spares (w.forFiles context s folder) := by
  intro _ _
  refine ⟨.refl _, ?_⟩
  rw [store]
  rintro _ ⟨⟩
  exact ⟨_, rfl, fun name _ => by rw [MemoryStore.objects_within]⟩

end Workspace.Spares

namespace PartWriter

theorem occurs_filePath (folder : String) (writer : RowWriter) (ids : Ids) {id : String}
    (plain : ∀ c ∈ id.toList, Path.isSlash c = false) :
    Path.Occurs id (filePath folder writer ids id) := by
  refine Path.Occurs.combine_right plain ?_ folder
  refine ⟨s!"Part-{ids.processText}-".toList, s!".{writer.extension}".toList, ?_⟩
  simp only [← String.toList_append, String.append_assoc]
  rfl

theorem spares_runUnit (folder : String) (writer : RowWriter) (token : Nat) (waiting : List Stage)
    (unit : SourceUnit) (w : Workspace) :
    w.Spares ((collector folder writer token).runUnit waiting unit w).2 := by
  intro s store
  cases active : w.tokens.isCancelled token with
  | true =>
    rw [Collector.runUnit, collector_isCancelled, active, if_pos rfl]
    exact Workspace.Spares.of_eq rfl rfl s store
  | false =>
    rw [runUnit_memory store active]
    cases unit.evaluate w.store waiting with
    | error e => exact Workspace.Spares.of_eq rfl rfl s store
    | ok rows =>
      refine ⟨w.ids.before_draw, ?_⟩
      rw [store, Ids.drawnUntil_draw]
      exact .deposit Ids.isSlash_of_mem_text
        (occurs_filePath folder writer w.ids Ids.isSlash_of_mem_text) s _

theorem spares_run (folder : String) (writer : RowWriter) (token : Nat) (p : Pipeline)
    (w : Workspace) : w.Spares ((collector folder writer token).run p w).2 :=
  Collector.run_induction
    (fun waiting unit _ spares => spares.trans (spares_runUnit folder writer token waiting unit _))
    p (.of_eq rfl rfl)

end PartWriter

namespace Segment

theorem snd_write (path : String) (rows : List Row) (store : Store) :
    (write path rows store).2 = (Store.put path (encode rows) store).2 := snd_bind_pure _ _ store

section Below

variable {id folder : String} (plain : ∀ c ∈ id.toList, Path.isSlash c = false) (named : id ≠ "")
  (occurs : Path.Occurs id folder)
include plain named occurs

theorem spares_runEach (n : Nat) (parts : List (List Row)) (w : Workspace) :
    (Jobs.runEach w (writeAll folder n parts)).2.ids = w.ids ∧
      w.store.Spares [id] (Jobs.runEach w (writeAll folder n parts)).2.store := by
  induction parts generalizing n w with
  | nil => exact ⟨rfl, .refl _ _⟩
  | cons part parts ih =>
    rw [writeAll, runEach_cons]
    obtain ⟨ids, rest⟩ :=
      ih (n + 1) (Workspace.onStore (write (Path.combine folder (name n)) part) w).2
    refine ⟨ids, .chain ?_ rest⟩
    change w.store.Spares [id] (write (Path.combine folder (name n)) part w.store).2
    rw [snd_write]
    exact .put plain (occurs.combine_left plain named _) w.store _

theorem spares_runAll (n : Nat) (parts : List (List Row)) (w : Workspace) :
    (Jobs.runAll (writeAll folder n parts) w).2.ids = w.ids ∧
      w.store.Spares [id] (Jobs.runAll (writeAll folder n parts) w).2.store :=
  spares_runEach plain named occurs n parts w

end Below

end Segment

theorem Pipeline.spares_persist (persistDir : String) (tier : Tier) (p : Pipeline) (w : Workspace) :
    w.Spares (p.persist persistDir tier w).2 := by
  cases tier with
  | memory =>
    rw [persist_memory]
    cases p.partitions w.store <;> exact .of_eq rfl rfl
  | disk =>
    have reads :
        (ExceptT.mk do return p.partitions (← get).store : Action RunError (List (List Row))) w
        = (p.partitions w.store, w) := rfl
    have drew : (liftM Workspace.drawId : Action RunError String) w
        = (.ok w.ids.draw.1, { w with ids := w.ids.draw.2 }) := rfl
    cases hp : p.partitions w.store with
    | error e =>
      rw [hp] at reads
      rw [Pipeline.persist, run_bind_error reads]
      exact .of_eq rfl rfl
    | ok parts =>
      rw [hp] at reads
      intro s store
      have occurs : Path.Occurs w.ids.draw.1 (Path.combine persistDir w.ids.draw.1) :=
        Path.Occurs.combine_right Ids.isSlash_of_mem_text List.infix_rfl persistDir
      have created :
          Workspace.onStore (Store.createContainer (Path.combine persistDir w.ids.draw.1))
              { w with ids := w.ids.draw.2 } = (.ok (), { w with
            ids := w.ids.draw.2
            store := .memory (s.createContainer (Path.combine persistDir w.ids.draw.1)) }) := by
        rw [Workspace.onStore, store]
        rfl
      have started : w.store.Spares [w.ids.draw.1]
          (.memory (s.createContainer (Path.combine persistDir w.ids.draw.1))) := by
        rw [store]
        exact (Store.Spares.createContainer (.memory s) _).mono (List.nil_subset _)
      obtain ⟨ids, written⟩ :=
        Segment.spares_runAll Ids.isSlash_of_mem_text (Ids.text_ne_empty _) occurs 0 parts
          { w with
            ids := w.ids.draw.2
            store := .memory (s.createContainer (Path.combine persistDir w.ids.draw.1)) }
      rw [Pipeline.persist, run_bind_ok reads]
      dsimp only
      rw [run_bind_ok drew, run_bind_ok created, snd_bind_pure, ids]
      refine ⟨w.ids.before_draw, ?_⟩
      rw [Ids.drawnUntil_draw]
      exact started.chain written

/-- What is wrong is seen before any row is read: with the statement, with its origin, with a term
of it, or with a codec. -/
def QueryError.IsRefusal : QueryError → Prop
  | sourceNotFound _ | unsupported _ | expression _ | data _ => True
  | unreadable | run _ => False

theorem Origin.pipeline?_changes (context : QueryContext) (origin : Origin) (w : Workspace) :
    ∃ results, (origin.pipeline? context w).2 = { w with results } ∧
      w.results.Untouched results := by
  cases origin with
  | resultSet name =>
    have untouched := w.results.untouched_openAs
    rw [Origin.pipeline?_resultSet]
    cases hopen : w.results.openAs .persisted ResultSets.queryCollection with
    | mk result results =>
      rw [hopen] at untouched
      cases result <;> exact ⟨results, rfl, untouched⟩
  | data path codec =>
    rw [Origin.pipeline?_data]
    cases context.catalog.decoder codec.name codec.options <;> exact ⟨w.results, rfl, .refl _⟩

namespace Query

variable (context : QueryContext) (q : Query) (w : Workspace)

theorem pipeline_changes :
    ∃ results, (q.pipeline context w).2 = { w with results } ∧ w.results.Untouched results := by
  have looked := q.source.origin.pipeline?_changes context w
  rw [pipeline]
  cases q.refusal? with
  | some refusal => exact ⟨w.results, rfl, .refl _⟩
  | none =>
    dsimp only
    cases hp : q.source.origin.pipeline? context w with
    | mk result w' =>
      rw [hp] at looked
      cases result with
      | error e => rwa [run_bind_error hp]
      | ok found =>
        rw [run_bind_ok hp]
        cases found with
        | none => exact looked
        | some p =>
          dsimp only
          rw [snd_bind_pure]
          exact looked

variable {context w} (p : Pipeline) {destination : Option Destination} {e : QueryError}

theorem untouched_deliver (failed : (deliver context p destination w).1 = .error e) :
    w.results.Untouched (deliver context p destination w).2.results := by
  cases destination with
  | none =>
    rw [deliver_none]
    cases p.rows w.store <;> exact .refl _
  | some destination =>
    cases destination with
    | folder path codec =>
      rw [deliver, keeps_route_folder context p path codec w]
      exact .refl _
    | resultSet name =>
      have untouched := w.results.untouched_openAs
      rw [deliver] at failed ⊢
      generalize hopened :
          (w.results.openAs .persisted ResultSets.queryCollection).2 = opened at untouched
      have kept := keeps_persist context.config.persistDir context.tier p
        { w with results := opened }
      rcases Destination.route_resultSet_cases context p name w hopened with
        ⟨_, _, routed⟩ | ⟨_, _, ran, routed⟩ | ⟨_, _, _, _, routed⟩
      · rw [routed]
        exact untouched
      · rw [ran] at kept
        rw [routed]
        exact kept ▸ untouched
      · rw [routed] at failed
        cases failed

theorem deliver_refused {s : MemoryStore} (store : w.store = .memory s)
    (failed : (deliver context p destination w).1 = .error e) (refusal : e.IsRefusal) :
    (deliver context p destination w).2 = w := by
  cases destination with
  | none =>
    rw [deliver_none]
    cases p.rows w.store <;> rfl
  | some destination =>
    rw [deliver] at failed ⊢
    cases destination with
    | folder path codec =>
      rcases Destination.route_folder_cases context p store path codec with
        ⟨_, _, routed⟩ | ⟨_, _, ⟨_, _, _, routed⟩ | ⟨_, _, _, routed⟩⟩
      · rw [routed]
      · rw [routed] at failed
        cases failed
        cases refusal
      · rw [routed] at failed
        cases failed
    | resultSet name =>
      rcases Destination.route_resultSet_cases context p name w rfl with
        ⟨_, _, routed⟩ | ⟨_, _, _, routed⟩ | ⟨_, _, _, _, routed⟩
      · rw [routed] at failed
        cases failed
        cases refusal
      · rw [routed] at failed
        cases failed
        cases refusal
      · rw [routed] at failed
        cases failed

theorem spares_deliver (destination : Option Destination) (w : Workspace) :
    w.Spares (deliver context p destination w).2 := by
  cases destination with
  | none =>
    rw [deliver_none]
    cases p.rows w.store <;> exact .of_eq rfl rfl
  | some destination =>
    rw [deliver]
    cases destination with
    | folder path codec =>
      intro s store
      have written (writer : RowWriter) := (Workspace.Spares.forFiles context store path).trans
        (PartWriter.spares_run path writer w.tokens.size p (w.forFiles context s path))
      rcases Destination.route_folder_cases context p store path codec with
        ⟨_, _, routed⟩ | ⟨writer, _, ⟨_, _, ran, routed⟩ | ⟨_, _, ran, routed⟩⟩
      · rw [routed]
        exact Workspace.Spares.of_eq rfl rfl s store
      · rw [routed]
        exact (ran ▸ written writer) s store
      · rw [routed]
        exact (ran ▸ written writer) s store
    | resultSet name =>
      generalize hopened : (w.results.openAs .persisted ResultSets.queryCollection).2 = opened
      have looked : w.Spares { w with results := opened } := .of_eq rfl rfl
      have written := looked.trans
        (p.spares_persist context.config.persistDir context.tier { w with results := opened })
      rcases Destination.route_resultSet_cases context p name w hopened with
        ⟨_, _, routed⟩ | ⟨_, _, ran, routed⟩ | ⟨_, _, ran, _, routed⟩
      · rw [routed]
        exact looked
      · rw [routed]
        rwa [ran] at written
      · rw [routed]
        rw [ran] at written
        exact written.trans (.of_eq rfl rfl)

end Query

end RowQuery
