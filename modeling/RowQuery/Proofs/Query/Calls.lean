import RowQuery.Proofs.Query.Files

/-!
Calls one after another, each of a statement in a context of its own. What was in the store before
stays in it, as long as the identifiers that are drawn are new.
-/

namespace RowQuery

namespace Query

variable (q : Query)

theorem execute_cases (context : QueryContext) (w : Workspace) :
    ∃ results, w.results.Untouched results ∧
    ((∃ e, q.execute context w = (.error e, { w with results })) ∨
      ∃ p, q.execute context w = deliver context p q.destination { w with results }) := by
  obtain ⟨results, changed, untouched⟩ := q.pipeline_changes context w
  refine ⟨results, untouched, ?_⟩
  rw [execute_eq]
  cases hp : q.pipeline context w with
  | mk result w' =>
    rw [hp] at changed
    obtain rfl : w' = { w with results } := changed
    cases result with
    | error e => exact .inl ⟨e, rfl⟩
    | ok p => exact .inr ⟨p, rfl⟩

theorem execute_disk {context : QueryContext} {w : Workspace} (disk : context.tier = .disk)
    {name : String} (into : q.destination = some (.resultSet name)) {output : QueryOutput}
    (succeeded : (q.execute context w).1 = .ok output) :
    ∃ parts segments parallelism,
      (q.execute context w).2.results.persisted? name = some (.disk segments parallelism) ∧
      List.Forall₂
        (fun part segment => Segment.WrittenIn (q.execute context w).2.store part (.ok segment))
        parts segments := by
  obtain ⟨results, -, ⟨e, executed⟩ | ⟨p, executed⟩⟩ := q.execute_cases context w
  · rw [executed] at succeeded
    cases succeeded
  · rw [executed, into, deliver] at succeeded ⊢
    generalize hopened :
        (ResultSets.openAs .persisted ResultSets.queryCollection results).2 = opened
    rcases Destination.route_resultSet_cases context p name { w with results } hopened with
      ⟨_, _, routed⟩ | ⟨_, _, _, routed⟩ | ⟨kept, w', ran, opens, routed⟩
    · rw [routed] at succeeded
      cases succeeded
    · rw [routed] at succeeded
      cases succeeded
    · rw [routed]
      rw [disk] at ran
      obtain ⟨parts, segments, rfl, written⟩ := persist_disk_ok ran
      have same := keeps_persist context.config.persistDir .disk p { w with results := opened }
      rw [ran] at same
      change w'.results = opened at same
      refine ⟨parts, segments, p.parallelism, ?_, written⟩
      rw [same]
      exact (opened.persisted?_upsert opens name _ name).trans (if_pos rfl)

end Query

namespace Statement

variable {context : QueryContext} {w : Workspace} (statement : Statement) {e : QueryError}

theorem spares_execute (context : QueryContext) (w : Workspace) :
    w.Spares (statement.execute context w).2 := by
  cases statement with
  | insert target => exact .of_eq rfl rfl
  | delete target => exact .of_eq rfl rfl
  | query q =>
    rw [execute]
    obtain ⟨results, -, ⟨e, executed⟩ | ⟨p, executed⟩⟩ := q.execute_cases context w
    · rw [executed]
      exact .of_eq rfl rfl
    · rw [executed]
      exact Workspace.Spares.trans (.of_eq rfl rfl)
        (Query.spares_deliver p q.destination { w with results })

theorem untouched_execute (failed : (statement.execute context w).1 = .error e) :
    w.results.Untouched (statement.execute context w).2.results := by
  cases statement with
  | insert target => exact .refl _
  | delete target => exact .refl _
  | query q =>
    rw [execute] at failed ⊢
    obtain ⟨results, untouched, ⟨e, executed⟩ | ⟨p, executed⟩⟩ := q.execute_cases context w
    · rw [executed]
      exact untouched
    · rw [executed] at failed ⊢
      exact untouched.trans (Query.untouched_deliver p failed)

theorem execute_refused {s : MemoryStore} (store : w.store = .memory s)
    (failed : (statement.execute context w).1 = .error e) (refusal : e.IsRefusal) :
    (statement.execute context w).2.store = w.store := by
  cases statement with
  | insert target => rfl
  | delete target => rfl
  | query q =>
    rw [execute] at failed ⊢
    obtain ⟨results, -, ⟨e, executed⟩ | ⟨p, executed⟩⟩ := q.execute_cases context w
    · rw [executed]
    · rw [executed] at failed ⊢
      have same := Query.deliver_refused (w := { w with results }) p store failed refusal
      rw [same]

end Statement

theorem Query.execute_plain (context : QueryContext) (q : Query) (w : Workspace)
    (plain : q.destination = none) :
    (q.execute context w).2.store = w.store ∧
    w.results.Untouched (q.execute context w).2.results := by
  obtain ⟨results, untouched, ⟨e, executed⟩ | ⟨p, executed⟩⟩ := q.execute_cases context w
  · rw [executed]
    exact ⟨rfl, untouched⟩
  · rw [executed, plain, deliver_none]
    cases p.rows w.store <;> exact ⟨rfl, untouched⟩

/-- The identifiers that are drawn between two states are in no path of an object of the first
one. -/
def Workspace.DrawsFresh (w w' : Workspace) : Prop :=
  ∀ s, w.store = .memory s →
    ∀ id ∈ w.ids.drawnUntil w'.ids, ∀ name ∈ s.objects.names, ¬ Path.Occurs id name

theorem Workspace.Spares.keeps {w w' : Workspace} (h : w.Spares w') (fresh : w.DrawsFresh w')
    {s : MemoryStore} (store : w.store = .memory s) : ∃ s', w'.store = .memory s' ∧
      ∀ name content, s.objects.get? name = some content → s'.objects.get? name = some content := by
  obtain ⟨-, spares⟩ := h s store
  obtain ⟨s', store', same⟩ := spares s store
  refine ⟨s', store', fun name content found => (same name fun id drawn => ?_).trans found⟩
  exact fresh s store id drawn name (NameMap.mem_names.2 ⟨content, found⟩)

namespace Calls

def run (w : Workspace) : List (QueryContext × Statement) → Workspace
  | [] => w
  | (context, statement) :: rest => run (statement.execute context w).2 rest

def DrawFresh (w : Workspace) : List (QueryContext × Statement) → Prop
  | [] => True
  | (context, statement) :: rest =>
    w.DrawsFresh (statement.execute context w).2 ∧ DrawFresh (statement.execute context w).2 rest

theorem run_keeps (calls : List (QueryContext × Statement)) {w : Workspace}
    (fresh : DrawFresh w calls) {s : MemoryStore} (store : w.store = .memory s) :
    ∃ s', (run w calls).store = .memory s' ∧
      ∀ name content, s.objects.get? name = some content → s'.objects.get? name = some content := by
  induction calls generalizing w s with
  | nil => exact ⟨s, store, fun _ _ found => found⟩
  | cons call calls ih =>
    obtain ⟨context, statement⟩ := call
    obtain ⟨s', store', kept⟩ := (statement.spares_execute context w).keeps fresh.1 store
    obtain ⟨s'', store'', kept'⟩ := ih fresh.2 store'
    exact ⟨s'', store'', fun name content found => kept' name content (kept name content found)⟩

/-- What calls leave alone in a store in memory, as long as the identifiers that they draw are new.
No call changes or removes an object that is there before it, so that segments go on to match their
checksums. A query without a destination, and a statement that is refused, changes nothing in the
store and in the result sets; and no statement that fails changes anything in the result sets. -/
theorem leave_alone (w : Workspace) (s : MemoryStore) (store : w.store = .memory s) :
    (∀ calls, DrawFresh w calls → ∃ s', (run w calls).store = .memory s' ∧
      ∀ name content, s.objects.get? name = some content → s'.objects.get? name = some content) ∧
    (∀ (context : QueryContext) (q : Query) name output, context.tier = .disk →
      q.destination = some (.resultSet name) → (q.execute context w).1 = .ok output →
      ∃ segments parallelism,
        (q.execute context w).2.results.persisted? name = some (.disk segments parallelism) ∧
        ∀ calls, DrawFresh (q.execute context w).2 calls → ∀ segment ∈ segments, ∃ content,
          (run (q.execute context w).2 calls).store.read segment.path = .ok content ∧
          Blake3.hash content = segment.checksum) ∧
    (∀ (context : QueryContext) (q : Query), q.destination = none →
      (q.execute context w).2.store = w.store ∧
      w.results.Untouched (q.execute context w).2.results) ∧
    (∀ (context : QueryContext) (statement : Statement) e,
      (statement.execute context w).1 = .error e →
      w.results.Untouched (statement.execute context w).2.results ∧
      (∀ name, (statement.execute context w).2.results.persisted? name
        = w.results.persisted? name) ∧
      (e.IsRefusal → (statement.execute context w).2.store = w.store)) := by
  refine ⟨fun calls fresh => run_keeps calls fresh store, ?_,
    fun context q => q.execute_plain context w, ?_⟩
  · intro context q name output disk into succeeded
    obtain ⟨parts, segments, parallelism, persisted, written⟩ := q.execute_disk disk into succeeded
    obtain ⟨-, spares⟩ := (Statement.query q).spares_execute context w s store
    obtain ⟨s₁, store₁, -⟩ := spares s store
    change (q.execute context w).2.store = .memory s₁ at store₁
    refine ⟨segments, parallelism, persisted, fun calls fresh segment hsegment => ?_⟩
    obtain ⟨s₂, store₂, kept⟩ := run_keeps calls fresh store₁
    obtain ⟨part, read, sum, -⟩ := Segment.part_of_mem written hsegment
    refine ⟨Segment.encode part, ?_, sum.symm⟩
    rw [store₁] at read
    rw [store₂]
    change s₁.read segment.path = _ at read
    change s₂.read segment.path = _
    rw [MemoryStore.read_eq_ok] at read ⊢
    exact kept _ _ read
  · intro context statement e failed
    have untouched := statement.untouched_execute failed
    exact ⟨untouched, untouched.persisted?, statement.execute_refused store failed⟩

theorem leave_alone_segment_folder :
    let row : Row := NameMap.empty.insert "n" (.int 1)
    let context : QueryContext := { config := { persistDir := "kept" }, tier := .disk, token := 0 }
    let s : MemoryStore :=
      { objects := .ofList [("kept/0/segment-00000.json", Segment.encode [row])] }
    let w : Workspace :=
      { store := .memory s
        tokens := Tokens.root {}
        results :=
          ({} : ResultSets).upsert .persisted ResultSets.queryCollection "r" (.memory [[row]] 1) }
    let q : Query :=
      { source := { origin := .resultSet "r" }
        destination := some (.folder "/kept/0/" { name := "csv" }) }
    let calls := [(context, Statement.query q), (context, .delete "r")]
    DrawFresh w calls ∧ (∃ file, (q.execute context w).1 = .ok (.files [file]) ∧ file.rows = 1) ∧
      ∃ s', (run w calls).store = .memory s' ∧
        s'.bytes? "kept/0/segment-00000.json" = some (Segment.encode [row]) := by
  intro row context s w q calls
  let p : Pipeline :=
    { (Persisted.memory [[row]] 1).pipeline with stages := [.map (projectRow [.star])] }
  have planned : q.pipeline context w = (.ok p, w) :=
    Query.pipeline_resultSet rfl rfl rfl rfl (by cbv)
  have prepared : p.prepare w.store = .ok ([[row]].map .rows, p.stages) := rfl
  have evaluated : [[row]].map (runStages p.stages) = [[row]].map .ok := by decide +kernel
  have writer : context.catalog.writer "csv" .empty = .ok (.csv 44) := by decide +kernel
  have accepted : ∀ part ∈ [[row]], ((RowWriter.csv 44).encoder.feed part).2 = .ok () := by
    rw [List.forall_mem_singleton]
    decide +kernel
  have executed : q.execute context w = _ :=
    Query.execute_parts rfl rfl planned writer (by decide +kernel) prepared evaluated accepted
  have refused (w' : Workspace) : ((Statement.delete "r").execute context w').2 = w' := rfl
  have drawn : w.ids.drawnUntil (w.ids.after 1) = [Ids.text 1] := by decide
  have names : s.objects.names = ["kept/0/segment-00000.json"] := by decide
  have fresh : DrawFresh w calls := by
    refine ⟨?_, ?_, trivial⟩
    · rintro _ ⟨⟩ id hid name hname
      rw [names] at hname
      rw [Statement.execute, executed] at hid
      change id ∈ w.ids.drawnUntil (w.ids.after 1) at hid
      rw [drawn] at hid
      rw [List.mem_singleton.1 hid, List.mem_singleton.1 hname]
      decide
    · intro _ _ id hid
      rw [refused, Ids.drawnUntil_self] at hid
      cases hid
  obtain ⟨s', store', kept⟩ := (leave_alone w s rfl).1 calls fresh
  have answered : (q.execute context w).1
      = .ok (.files [⟨PartWriter.filePath "/kept/0/" (.csv 44) w.ids (Ids.text 1), 1⟩]) := by
    rw [executed]
    rfl
  have named : s.objects.get? "kept/0/segment-00000.json" = some (Segment.encode [row]) := by rfl
  exact ⟨fresh, ⟨_, answered, rfl⟩, s', store', kept _ _ named⟩

end Calls

end RowQuery
