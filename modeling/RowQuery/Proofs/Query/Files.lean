import RowQuery.Proofs.Query.Shares

/-!
The files of a query into a folder in memory: one for each part that is not empty, with the bytes
that a fresh encoder makes of it.
-/

namespace RowQuery

namespace PartWriter

def numbered (folder : String) (writer : RowWriter) :
    Ids → List (List Row) → List (String × List Row)
  | _, [] => []
  | ids, part :: rest =>
    (filePath folder writer ids ids.draw.1, part) :: numbered folder writer ids.draw.2 rest

/-- The parts for which there is a file, each with its path. -/
def blocks (folder : String) (writer : RowWriter) (ids : Ids) (parts : List (List Row)) :
    List (String × List Row) :=
  (numbered folder writer ids parts).filter fun block => !block.2.isEmpty

def entries (writer : RowWriter) (l : List (String × List Row)) : List (String × Bytes) :=
  l.map fun block => (block.1, (writer.encoder.feed block.2).1)

def reported (l : List (String × List Row)) : List WrittenFile :=
  l.map fun block => ⟨block.1, block.2.length⟩

section Numbered

variable (folder : String) (writer : RowWriter) (ids : Ids) (parts : List (List Row))

theorem map_snd_numbered : (numbered folder writer ids parts).map Prod.snd = parts := by
  induction parts generalizing ids with
  | nil => rfl
  | cons part parts ih => rw [numbered, List.map_cons, ih]

theorem shares_ok : shares folder writer ids (parts.map .ok)
    = (numbered folder writer ids parts).map fun block => .assigned block.1 block.2 := by
  induction parts generalizing ids with
  | nil => rfl
  | cons part parts ih => rw [List.map_cons, shares, ih, numbered, List.map_cons]

theorem drawnFor_ok : drawnFor ids (parts.map .ok) = ids.after parts.length := by
  induction parts generalizing ids with
  | nil => rfl
  | cons part parts ih =>
    rw [List.map_cons, drawnFor, ih, List.length_cons, Nat.add_comm]
    exact ids.after_after 1 parts.length

theorem map_snd_blocks :
    (blocks folder writer ids parts).map Prod.snd = parts.filter fun part => !part.isEmpty := by
  rw [blocks, ← map_snd_numbered folder writer ids parts, List.filter_map, map_snd_numbered]
  rfl

variable {folder writer ids parts}

theorem path_of_mem_blocks {block : String × List Row}
    (h : block ∈ blocks folder writer ids parts) :
    ∃ id ∈ ids.drawnUntil (ids.after parts.length), block.1 = filePath folder writer ids id := by
  have share : .assigned block.1 block.2 ∈ shares folder writer ids (parts.map .ok) := by
    rw [shares_ok]
    exact List.mem_map_of_mem (List.mem_filter.1 h).1
  rw [← drawnFor_ok]
  exact path_of_mem_shares share rfl

theorem nodup_blocks (distinct : (ids.drawnUntil (ids.after parts.length)).Nodup) :
    ((blocks folder writer ids parts).map fun block => Path.trimSlashes block.1).Nodup := by
  rw [← drawnFor_ok] at distinct
  have apart : (shares folder writer ids (parts.map .ok)).Pairwise Share.Apart :=
    apart_shares distinct
  rw [shares_ok, List.pairwise_map] at apart
  have all : ((numbered folder writer ids parts).map fun block => Path.trimSlashes block.1).Nodup :=
    List.pairwise_map.2 (apart.imp fun h => h _ rfl _ rfl)
  exact all.sublist (List.filter_sublist.map _)

end Numbered

theorem gather_outcome (writer : RowWriter) {l : List (String × List Row)}
    {reports : List (List WrittenFile)}
    (succeeded : Jobs.gather (l.map fun block => outcome writer block.1 block.2) = .ok reports) :
    reports.flatten = reported (l.filter fun block => !block.2.isEmpty) ∧
      ∀ block ∈ l.filter fun block => !block.2.isEmpty,
        (writer.encoder.feed block.2).2 = .ok () := by
  rw [gather_eq_ok] at succeeded
  induction l generalizing reports with
  | nil =>
    cases reports with
    | nil => exact ⟨rfl, nofun⟩
    | cons report reports => cases succeeded
  | cons block l ih =>
    cases reports with
    | nil => cases succeeded
    | cons report reports =>
      rw [List.map_cons, List.map_cons, List.cons.injEq] at succeeded
      obtain ⟨reported, rest⟩ := succeeded
      obtain ⟨files, accepted⟩ := ih rest
      rw [outcome] at reported
      cases empty : block.2.isEmpty with
      | true =>
        rw [if_pos empty] at reported
        cases reported
        simp only [List.filter_cons, empty]
        exact ⟨files, accepted⟩
      | false =>
        rw [if_neg (by simp [empty]), PartWriter.report] at reported
        simp only [List.filter_cons, empty, List.flatten_cons, files]
        cases fed : (writer.encoder.feed block.2).2 with
        | error fault =>
          rw [fed] at reported
          cases reported
        | ok done =>
          rw [fed] at reported
          cases reported
          exact ⟨rfl, List.forall_mem_cons.2 ⟨fed, accepted⟩⟩

theorem depositAll_assigned (writer : RowWriter) (s : MemoryStore) (l : List (String × List Row)) :
    s.depositAll (l.map fun block => .assigned block.1 block.2)
        ((l.map fun block => .assigned block.1 block.2).map (Share.content? writer))
      = s.insertAll (entries writer (l.filter fun block => !block.2.isEmpty)) := by
  induction l generalizing s with
  | nil => rfl
  | cons block l ih =>
    rw [List.map_cons, List.map_cons, MemoryStore.depositAll, ih, Share.content?,
      RowWriter.content?, List.filter_cons]
    cases block.2.isEmpty <;> rfl

theorem ok_of_shares (folder : String) (writer : RowWriter) {ids : Ids}
    {found : List (Except RunError (List Row))} {reports : List (List WrittenFile)}
    (succeeded : Jobs.gather
      ((shares folder writer ids found).map (Share.outcome writer)) = .ok reports) :
    ∃ parts : List (List Row), found = parts.map .ok := by
  rw [gather_eq_ok] at succeeded
  induction found generalizing ids reports with
  | nil => exact ⟨[], rfl⟩
  | cons result found ih =>
    cases reports with
    | nil => cases result <;> cases succeeded
    | cons report reports =>
      cases result with
      | error e => cases (List.cons.inj succeeded).1
      | ok part =>
        obtain ⟨parts, rfl⟩ := ih (List.cons.inj succeeded).2
        exact ⟨part :: parts, rfl⟩

theorem run_files {folder : String} {writer : RowWriter} {token : Nat} {p : Pipeline}
    {w w' : Workspace} {s : MemoryStore} (store : w.store = .memory s) {files : List WrittenFile}
    (ran : (collector folder writer token).run p w = (.ok files, w'))
    (avoid : ∀ id ∈ w.ids.drawnUntil w'.ids, ∀ unit ∈ p.source.units, unit.Avoids id) :
    ∃ parts, p.partitions w.store = .ok parts ∧
      w'.ids = w.ids.after parts.length ∧
      w'.store = .memory (s.insertAll (entries writer (blocks folder writer w.ids parts))) ∧
      files = reported (blocks folder writer w.ids parts) ∧
      ∀ block ∈ blocks folder writer w.ids parts, (writer.encoder.feed block.2).2 = .ok () := by
  obtain ⟨active, units, waiting, reports, prepared, each, rfl⟩ := Collector.run_eq_ok _ ran
  have avoidLeft : ∀ id ∈ w.ids.drawnUntil (Jobs.runEach w
      (units.map ((collector folder writer token).runUnit waiting))).2.ids,
        ∀ unit ∈ units, unit.Avoids id := by
    rw [each]
    intro id drawn unit hunit
    rcases mem_prepareFrom prepared hunit with source | plain
    · exact avoid id drawn unit source
    · intro path hpath
      rw [plain] at hpath
      cases hpath
  have memory := runEach_memory store active waiting units avoidLeft
  rw [each, Prod.mk.injEq] at memory
  obtain ⟨outcomes, rfl⟩ := memory
  obtain ⟨parts, found⟩ := ok_of_shares folder writer (gather_eq_ok.2 outcomes.symm)
  rw [found, shares_ok] at outcomes ⊢
  rw [List.map_map] at outcomes
  obtain ⟨files, accepted⟩ := gather_outcome writer (gather_eq_ok.2 outcomes.symm)
  refine ⟨parts, ?_, ?_, ?_, files, accepted⟩
  · have gathered : p.partitions w.store
        = Jobs.gather (units.map fun unit => unit.evaluate w.store waiting) := by
      rw [Pipeline.partitions, show p.prepare w.store = .ok (units, waiting) from prepared]
      rfl
    rw [gathered, found, Jobs.gather_map_ok]
  · exact drawnFor_ok w.ids parts
  · rw [depositAll_assigned]
    rfl

theorem run_rows {folder : String} {writer : RowWriter} {token : Nat} {p : Pipeline} {w : Workspace}
    {s : MemoryStore} {split parts : List (List Row)} {waiting : List Stage}
    (store : w.store = .memory s) (active : w.tokens.isCancelled token = false)
    (prepared : p.prepare w.store = .ok (split.map .rows, waiting))
    (evaluated : split.map (runStages waiting) = parts.map .ok)
    (accepted : ∀ part ∈ parts, (writer.encoder.feed part).2 = .ok ()) :
    (collector folder writer token).run p w
        = (.ok (reported (blocks folder writer w.ids parts)), { w with
      ids := w.ids.after parts.length
      store := .memory (s.insertAll (entries writer (blocks folder writer w.ids parts))) }) := by
  have each : Jobs.runEach w
      ((split.map .rows).map ((collector folder writer token).runUnit waiting)) = _ :=
    runEach_memory store active waiting (split.map .rows) fun id _ => by
      rw [List.forall_mem_map]
      intro part _ path hpath
      cases hpath
  have found : (split.map SourceUnit.rows).map (fun unit => unit.evaluate w.store waiting)
      = parts.map .ok := by
    rw [← evaluated, List.map_map]
    rfl
  have outcomes :
      ((numbered folder writer w.ids parts).map fun block => Share.assigned block.1 block.2).map
      (Share.outcome writer) = (numbered folder writer w.ids parts).map
        fun block => outcome writer block.1 block.2 :=
    List.map_map
  rw [found, shares_ok, outcomes, drawnFor_ok, depositAll_assigned] at each
  have taken : ∀ result ∈ (numbered folder writer w.ids parts).map fun block =>
      outcome writer block.1 block.2, result.toOption.isSome = true := by
    rw [List.forall_mem_map]
    intro block hblock
    rw [outcome]
    split
    · rfl
    · rw [accepted block.2
        (map_snd_numbered folder writer w.ids parts ▸ List.mem_map_of_mem hblock)]
      rfl
  rw [← isSome_gather] at taken
  obtain ⟨reports, gathered⟩ := Option.isSome_iff_exists.1 taken
  rw [toOption_eq_some] at gathered
  have files : reports.flatten = reported (blocks folder writer w.ids parts) :=
    (gather_outcome writer gathered).1
  rw [Collector.run_active _ active prepared, Collector.runUnits_eq, each]
  dsimp only
  rw [gathered, ← files]
  rfl

theorem insertAll_blocks {folder : String} {writer : RowWriter} {ids : Ids}
    {parts : List (List Row)} (distinct : (ids.drawnUntil (ids.after parts.length)).Nodup)
    {s : MemoryStore} (fresh : ∀ id ∈ ids.drawnUntil (ids.after parts.length),
      ∀ name ∈ s.objects.names, ¬ Path.Occurs id name)
    (accepted : ∀ block ∈ blocks folder writer ids parts,
      (writer.encoder.feed block.2).2 = .ok ()) :
    (∀ block ∈ blocks folder writer ids parts, s.bytes? block.1 = none ∧
      writer.encoder.feed block.2 = (writer.encode block.2, .ok ()) ∧
      (s.insertAll (entries writer (blocks folder writer ids parts))).bytes? block.1
        = some (writer.encode block.2)) ∧
    ∀ name, (∀ block ∈ blocks folder writer ids parts, name ≠ Path.trimSlashes block.1) →
      (s.insertAll (entries writer (blocks folder writer ids parts))).objects.get? name
        = s.objects.get? name := by
  refine ⟨fun block hblock => ⟨?_, ?_, ?_⟩, fun name apart => ?_⟩
  · obtain ⟨id, drawn, path⟩ := path_of_mem_blocks hblock
    have plain := Ids.isSlash_of_mem_drawnUntil drawn
    have occurs := (occurs_filePath folder writer ids plain).trimSlashes plain
    rw [← path] at occurs
    refine Option.eq_none_iff_forall_ne_some.2 fun content found => ?_
    exact fresh id drawn _ (NameMap.mem_names.2 ⟨content, found⟩) occurs
  · exact Prod.ext (RowWriter.encodeFrom_of_feed (accepted block hblock)).symm
      (accepted block hblock)
  · have hentry : (block.1, (writer.encoder.feed block.2).1) ∈ entries writer
        (blocks folder writer ids parts) :=
      List.mem_map_of_mem hblock
    have keys :
        ((entries writer (blocks folder writer ids parts)).map
          fun entry => Path.trimSlashes entry.1).Nodup := by
      rw [entries, List.map_map]
      exact nodup_blocks distinct
    have found := s.bytes?_insertAll keys hentry
    have bytes : writer.encode block.2 = (writer.encoder.feed block.2).1 :=
      RowWriter.encodeFrom_of_feed (accepted block hblock)
    rw [bytes]
    exact found
  · exact s.get?_insertAll (List.forall_mem_map.2 apart)

end PartWriter

/-- The paths that are known in a workspace: those of its objects, and those of the segments in its
result sets. -/
def Workspace.Knows (w : Workspace) (path : String) : Prop :=
  (∃ s, w.store = .memory s ∧ path ∈ s.objects.names) ∨
    ∃ name segments parallelism, w.results.persisted? name = some (.disk segments parallelism) ∧
      ∃ segment ∈ segments, segment.path = path

theorem Store.mem_objects? {s : MemoryStore} {path : String} {paths : List String}
    (found : Store.objects? (.memory s) path = some paths) {object : String} (h : object ∈ paths) :
    object ∈ s.objects.names ∨ Path.trimSlashes object ∈ s.objects.names := by
  rw [Store.objects?] at found
  split at found
  · next exists' =>
    cases found
    obtain rfl := List.mem_singleton.1 h
    exact .inr (NameMap.mem_names.2 (Option.isSome_iff_exists.1 exists'))
  · split at found
    · cases found
      exact .inl (List.mem_filter.1 h).1
    · cases found

theorem Origin.avoids_of_pipeline? {context : QueryContext} {origin : Origin} {w w' : Workspace}
    {s : MemoryStore} (store : w.store = .memory s) {p : Pipeline}
    (found : origin.pipeline? context w = (.ok (some p), w')) {id : String}
    (fresh : ∀ path, w.Knows path → ¬ Path.Occurs id path) :
    ∀ unit ∈ p.source.units, unit.Avoids id := by
  cases origin with
  | resultSet name =>
    have kept := (Origin.toOption_pipeline?_resultSet context w name).2
    rw [found] at kept
    obtain ⟨persisted, named, rfl⟩ := Option.map_eq_some_iff.1 kept.symm
    cases persisted with
    | memory parts parallelism =>
      intro unit hunit path hpath
      obtain ⟨part, -, rfl⟩ := List.mem_map.1 hunit
      cases hpath
    | disk segments parallelism =>
      intro unit hunit path hpath occurs
      obtain ⟨segment, hsegment, rfl⟩ := List.mem_map.1 hunit
      obtain rfl : segment.path = path := Option.some.inj hpath
      exact fresh segment.path
        (.inr ⟨name, segments, parallelism, named, segment, hsegment, rfl⟩) occurs.of_trimSlashes
  | data path codec =>
    rw [Origin.pipeline?_data] at found
    cases hd : context.catalog.decoder codec.name codec.options with
    | error fault =>
      rw [hd] at found
      cases found
    | ok decoder =>
      rw [hd, store] at found
      obtain ⟨paths, listed, rfl⟩ := Option.map_eq_some_iff.1 (Except.ok.inj (Prod.mk.inj found).1)
      intro unit hunit object hobject occurs
      obtain ⟨_, hlisted, rfl⟩ := List.mem_map.1 hunit
      obtain rfl := Option.some.inj hobject
      rcases Store.mem_objects? listed hlisted with named | named
      · exact fresh _ (.inl ⟨s, store, named⟩) occurs.of_trimSlashes
      · exact fresh _ (.inl ⟨s, store, named⟩) occurs

theorem Query.pipeline_eq_ok {context : QueryContext} {q : Query} {w w' : Workspace} {p : Pipeline}
    (planned : q.pipeline context w = (.ok p, w')) :
    ∃ start, q.source.origin.pipeline? context w = (.ok (some start), w') ∧
      p.source = start.source := by
  rw [Query.pipeline] at planned
  cases hr : q.refusal? with
  | some refusal =>
    rw [hr] at planned
    cases planned
  | none =>
    rw [hr] at planned
    dsimp only at planned
    cases ho : q.source.origin.pipeline? context w with
    | mk result w₁ =>
      cases result with
      | error e =>
        rw [run_bind_error ho] at planned
        cases planned
      | ok found =>
        rw [run_bind_ok ho] at planned
        cases found with
        | none => cases planned
        | some start =>
          dsimp only at planned
          cases hs : q.stages context.compile with
          | error e =>
            rw [hs] at planned
            cases planned
          | ok stages =>
            rw [hs] at planned
            cases planned
            exact ⟨start, rfl, rfl⟩

theorem Query.execute_folder_ok {context : QueryContext} {q : Query} {w w' : Workspace}
    {s : MemoryStore} {folder : String} {codec : CodecRef} {files : List WrittenFile}
    (into : q.destination = some (.folder folder codec)) (store : w.store = .memory s)
    (executed : q.execute context w = (.ok (.files files), w')) :
    ∃ results p writer, q.pipeline context w = (.ok p, { w with results }) ∧
      context.catalog.writer codec.name codec.options = .ok writer ∧
      (PartWriter.collector folder writer w.tokens.size).run p
        (({ w with results } : Workspace).forFiles context s folder)
        = (.ok files, w') := by
  obtain ⟨results, changed, -⟩ := q.pipeline_changes context w
  rw [execute_eq] at executed
  cases planned : q.pipeline context w with
  | mk result w₁ =>
    rw [planned] at changed executed
    obtain rfl : w₁ = { w with results } := changed
    cases result with
    | error e => cases executed
    | ok p =>
      rw [into] at executed
      change Destination.route context p (.folder folder codec) { w with results } = _ at executed
      have kept : ({ w with results } : Workspace).store = .memory s := store
      rcases Destination.route_folder_cases context p kept folder codec with
        ⟨_, _, routed⟩ | ⟨writer, hwriter, ⟨_, _, _, routed⟩ | ⟨_, _, ran, routed⟩⟩
      · cases routed.symm.trans executed
      · cases routed.symm.trans executed
      · cases routed.symm.trans executed
        exact ⟨results, p, writer, rfl, hwriter, ran⟩

/-- A query into a folder that succeeds has written what it would have answered: one file for each
part that is not empty, in the order of the parts, with the bytes that a fresh encoder makes of the
rows of the part, all of which it takes. The files are new and no other object is touched. -/
theorem Query.execute_folder {context : QueryContext} {q : Query} {w w' : Workspace}
    {s : MemoryStore} {folder : String} {codec : CodecRef} {files : List WrittenFile}
    (into : q.destination = some (.folder folder codec)) (store : w.store = .memory s)
    (executed : q.execute context w = (.ok (.files files), w'))
    (distinct : (w.ids.drawnUntil w'.ids).Nodup)
    (fresh : ∀ id ∈ w.ids.drawnUntil w'.ids, ∀ path, w.Knows path → ¬ Path.Occurs id path) :
    ∃ s' writer p w₁ parts, w'.store = .memory s' ∧
      context.catalog.writer codec.name codec.options = .ok writer ∧
      q.pipeline context w = (.ok p, w₁) ∧ p.partitions w.store = .ok parts ∧
      (q.asArray.execute context w).1
        = .ok (.array (parts.filter fun part => !part.isEmpty).flatten) ∧
      List.Forall₂ (fun part (file : WrittenFile) => file.rows = part.length ∧
          (∃ id ∈ w.ids.drawnUntil w'.ids,
            file.path = Path.combine folder s!"Part-{w.ids.processText}-{id}.{writer.extension}") ∧
          s.bytes? file.path = none ∧ writer.encoder.feed part = (writer.encode part, .ok ()) ∧
          s'.bytes? file.path = some (writer.encode part))
        (parts.filter fun part => !part.isEmpty) files ∧
      (files.map WrittenFile.path).Nodup ∧
      ∀ name, (∀ file ∈ files, name ≠ Path.trimSlashes file.path) →
        s'.objects.get? name = s.objects.get? name := by
  obtain ⟨results, p, writer, planned, hwriter, ran⟩ := execute_folder_ok into store executed
  have avoid : ∀ id ∈ w.ids.drawnUntil w'.ids, ∀ unit ∈ p.source.units, unit.Avoids id := by
    obtain ⟨start, found, source⟩ := pipeline_eq_ok planned
    intro id drawn
    rw [source]
    exact Origin.avoids_of_pipeline? store found (fresh id drawn)
  obtain ⟨parts, computed, ids, stored, reported, accepted⟩ := PartWriter.run_files rfl ran avoid
  change w'.ids = w.ids.after parts.length at ids
  change _ = PartWriter.reported (PartWriter.blocks folder writer w.ids parts) at reported
  change ∀ block ∈ PartWriter.blocks folder writer w.ids parts, _ at accepted
  rw [ids] at distinct fresh ⊢
  subst reported
  have known : ∀ id ∈ w.ids.drawnUntil (w.ids.after parts.length),
    ∀ name ∈ (s.within folder).objects.names,
      ¬ Path.Occurs id name := by
    rw [MemoryStore.objects_within]
    exact fun id drawn name hname => fresh id drawn name (.inl ⟨s, store, hname⟩)
  have partitions : p.partitions w.store = .ok parts := by
    rw [store, ← computed]
    exact (p.partitions_congr (Store.read_within s folder)).symm
  have answer : (q.asArray.execute context w).1 = .ok (.array parts.flatten) := by
    have asArray : q.asArray.pipeline context w = (.ok p, { w with results }) := planned
    have rows : p.rows w.store = .ok parts.flatten := by
      rw [Pipeline.rows, partitions]
      rfl
    rw [execute_eq, asArray]
    change (deliver context p none { w with results }).1 = _
    rw [deliver_none, rows]
  obtain ⟨written, others⟩ := PartWriter.insertAll_blocks distinct known accepted
  rw [MemoryStore.objects_within] at others
  refine ⟨_, writer, p, _, parts, stored, hwriter, planned, partitions, ?_, ?_, ?_,
    fun name apart => ?_⟩
  · rw [answer, List.flatten_filter_not_isEmpty]
  · rw [← PartWriter.map_snd_blocks folder writer w.ids parts, PartWriter.reported,
      List.forall₂_map_left_iff, List.forall₂_map_right_iff, List.forall₂_same]
    intro block hblock
    obtain ⟨absent, bytes, found⟩ := written block hblock
    refine ⟨rfl, PartWriter.path_of_mem_blocks hblock, ?_, bytes, found⟩
    rw [← absent, MemoryStore.bytes?, MemoryStore.bytes?, MemoryStore.objects_within]
  · rw [PartWriter.reported, List.map_map]
    refine List.Nodup.of_map Path.trimSlashes ?_
    rw [List.map_map]
    exact PartWriter.nodup_blocks distinct
  · exact others name fun block hblock => apart ⟨block.1, block.2.length⟩
      (List.mem_map_of_mem hblock)

theorem Query.pipeline_resultSet {context : QueryContext} {q : Query} {w : Workspace}
    {name : String} {kept : Persisted} {entries : NameMap Persisted} {stages : List Stage}
    (whole : q.refusal? = none) (source : q.source.origin = .resultSet name)
    (opened : w.results.openAs .persisted ResultSets.queryCollection = (.ok entries, w.results))
    (named : entries.get? name = some kept) (compiled : q.stages context.compile = .ok stages) :
    q.pipeline context w = (.ok { kept.pipeline with stages }, w) := by
  have found : q.source.origin.pipeline? context w = (.ok (some kept.pipeline), w) := by
    rw [source, Origin.pipeline?_resultSet context w name, opened]
    change (Except.ok ((NameMap.get? entries name).map Persisted.pipeline), _) = _
    rw [named]
    rfl
  have made : (checked (q.stages context.compile) : Action QueryError (List Stage)) w
      = (.ok stages, w) := by
    rw [compiled]
    rfl
  rw [Query.pipeline, whole]
  refine (run_bind_ok found _).trans ?_
  exact run_bind_ok made _

theorem Query.execute_parts {context : QueryContext} {q : Query} {w : Workspace} {s : MemoryStore}
    {folder : String} {codec : CodecRef} {writer : RowWriter} {p : Pipeline}
    {split parts : List (List Row)} {waiting : List Stage}
    (into : q.destination = some (.folder folder codec)) (store : w.store = .memory s)
    (planned : q.pipeline context w = (.ok p, w))
    (found : context.catalog.writer codec.name codec.options = .ok writer)
    (active : (w.tokens.derive context.token).isCancelled w.tokens.size = false)
    (prepared : p.prepare w.store = .ok (split.map .rows, waiting))
    (evaluated : split.map (runStages waiting) = parts.map .ok)
    (accepted : ∀ part ∈ parts, (writer.encoder.feed part).2 = .ok ()) :
    q.execute context w =
        (.ok (.files (PartWriter.reported (PartWriter.blocks folder writer w.ids parts))), { w with
      ids := w.ids.after parts.length
      store := .memory
        ((s.within folder).insertAll
          (PartWriter.entries writer (PartWriter.blocks folder writer w.ids parts)))
      tokens := w.tokens.derive context.token }) := by
  have prepared' : p.prepare (w.forFiles context s folder).store
      = .ok (split.map .rows, waiting) := by
    rw [← prepared, store]
    exact p.prepare_congr (Store.read_within s folder)
  have ran : (PartWriter.collector folder writer w.tokens.size).run p
      (w.forFiles context s folder) = _ :=
    PartWriter.run_rows rfl active prepared' evaluated accepted
  rw [execute_eq, planned, into]
  change Destination.route context p (.folder folder codec) w = _
  rw [Destination.route_folder context p store, found]
  dsimp only
  rw [ran]
  rfl

theorem Query.execute_folder_empty_part :
    let row (i : Int64) : Row := NameMap.empty.insert "n" (.int i)
    let context : QueryContext := { config := {}, tier := .memory, token := 0 }
    let s : MemoryStore := { objects := .ofList [("out/Part-old.csv", [])] }
    let kept : Persisted := .memory [[row 1, row 5, row 2], [row 6], [row 3]] 3
    let w : Workspace := { store := .memory s, tokens := Tokens.root {}
                           results := ({} : ResultSets).upsert .persisted
                             ResultSets.queryCollection "r" kept }
    let q : Query := { source := { origin := .resultSet "r" }
                       filter := some (.binary .lt (.column ["n"]) (.literal (.int 4)))
                       destination := some (.folder "/out/" { name := "csv" }) }
    ∃ files w' s', q.execute context w = (.ok (.files files), w') ∧
      (w.ids.drawnUntil w'.ids).Nodup ∧
      (∀ id ∈ w.ids.drawnUntil w'.ids, ∀ path, w.Knows path → ¬ Path.Occurs id path) ∧
      (q.asArray.execute context w).1 = .ok (.array [row 1, row 2, row 3]) ∧ w'.store = .memory s' ∧
      List.Forall₂ (fun content (file : WrittenFile) => s.bytes? file.path = none ∧
        s'.bytes? file.path = some content)
        (["n\n1\n2\n", "n\n3\n"].map Bytes.ofText) files ∧
      (files.map WrittenFile.path).Nodup := by
  intro row context s kept w q
  let condition : Expression :=
    Term.binaryExpression .lt (fun r => r.lookup (columnName ["n"])) fun _ => .ok (.int 4)
  let parts := [[row 1, row 2], [], [row 3]]
  let p : Pipeline :=
    { kept.pipeline with stages := [filterStage condition, .map (projectRow [.star])] }
  have planned : q.pipeline context w = (.ok p, w) := pipeline_resultSet rfl rfl rfl rfl (by cbv)
  have prepared : p.prepare w.store
    = .ok ([[row 1, row 5, row 2], [row 6], [row 3]].map .rows, p.stages) := rfl
  have evaluated : [[row 1, row 5, row 2], [row 6], [row 3]].map (runStages p.stages)
    = parts.map .ok := by decide +kernel
  have writer : context.catalog.writer "csv" .empty = .ok (.csv 44) := by decide +kernel
  have accepted : ∀ part ∈ parts, ((RowWriter.csv 44).encoder.feed part).2 = .ok () := by
    simp only [parts, List.forall_mem_cons]
    exact ⟨by decide +kernel, by decide +kernel, by decide +kernel, List.forall_mem_nil _⟩
  have executed : q.execute context w = _ :=
    execute_parts rfl rfl planned writer (by decide +kernel) prepared evaluated accepted
  have drawn : w.ids.drawnUntil (w.ids.after parts.length)
    = [Ids.text 1, Ids.text 2, Ids.text 3] := by decide
  have distinct : (w.ids.drawnUntil (w.ids.after parts.length)).Nodup := by
    rw [drawn]
    decide
  have fresh : ∀ id ∈ w.ids.drawnUntil (w.ids.after parts.length),
      ∀ path, w.Knows path → ¬ Path.Occurs id path := by
    rw [drawn]
    rintro id hid path (⟨_, ⟨⟩, named⟩ | ⟨name, segments, parallelism, disk, -⟩)
    · revert id path
      decide
    · rw [ResultSets.persisted?_upsert ResultSets.opens_empty] at disk
      split at disk
      · exact Persisted.noConfusion (Option.some.inj disk)
      · cases disk
  obtain ⟨s', writer', p', w₁, found, stored, hwriter, planned', computed, answered,
      each, paths, -⟩ :=
    execute_folder rfl rfl executed distinct fresh
  cases planned.symm.trans planned'
  cases writer.symm.trans hwriter
  obtain rfl : found = parts := Except.ok.inj (computed.symm.trans (by decide +kernel))
  have contents : (parts.filter fun part => !part.isEmpty).map (RowWriter.csv 44).encode
      = ["n\n1\n2\n", "n\n3\n"].map Bytes.ofText := by decide +kernel
  refine ⟨_, _, s', executed, distinct, fresh, answered, stored, ?_, paths⟩
  rw [← contents, List.forall₂_map_left_iff]
  exact each.imp fun _ _ file => ⟨file.2.2.1, file.2.2.2.2⟩

end RowQuery
