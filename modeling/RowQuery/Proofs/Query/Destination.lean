import RowQuery.Proofs.Pipeline.Collect
import RowQuery.Proofs.Pipeline.Persist
import RowQuery.Proofs.Query.Origin

/-!
What the destination of a query does to the result sets. Only a result set as the destination
changes any, and then the one of its name, once the rows are there.
-/

namespace RowQuery

def Workspace.view (w : Workspace) : Prop × (String → Option Persisted) := w.results.view

theorem keeps_onStore {α : Type} (action : StoreAction α) :
    Keeps Workspace.results (Workspace.onStore action) :=
  fun _ => rfl

theorem keeps_drawId : Keeps Workspace.results (liftM Workspace.drawId : Action RunError String) :=
  fun _ => rfl

theorem keeps_openCollection :
    Keeps Workspace.view (Workspace.openCollection .persisted ResultSets.queryCollection) :=
  fun w => w.results.view_openAs

theorem keeps_onRun {τ α : Type} {f : Workspace → τ} {action : Action RunError α}
    (h : Keeps f action) : Keeps f (onRun action) := by
  intro w
  rw [← h w, onRun]
  cases action w with
  | mk result w' => cases result <;> rfl

theorem keeps_openFile (folder : String) (writer : RowWriter) (id : String) :
    Keeps Workspace.results (PartWriter.openFile folder writer id) :=
  .bind (fun _ => rfl) fun _ => .bind (keeps_onStore _) fun _ => .pure _

theorem keeps_ensureFile (folder : String) (writer : RowWriter) (p : PartWriter) :
    Keeps Workspace.results (PartWriter.ensureFile folder writer p) := by
  rw [PartWriter.ensureFile]
  cases p.file with
  | none => exact keeps_openFile folder writer p.id
  | some file => exact .pure file

theorem keeps_collector (folder : String) (writer : RowWriter) (token : Nat) :
    (PartWriter.collector folder writer token).Keeps Workspace.results where
  start := .bind keeps_drawId fun _ => .pure _
  push p row w := by
    change (PartWriter.push folder writer p row w).2.results = w.results
    rw [← keeps_ensureFile folder writer p w, PartWriter.push]
    cases PartWriter.ensureFile folder writer p w with
    | mk result w' =>
      cases result with
      | error e => rfl
      | ok file =>
        dsimp only
        cases file.encoder.write row <;> rfl
  close p w := by
    change (PartWriter.close p w).2.results = w.results
    rw [PartWriter.close]
    cases p.file <;> rfl

theorem keeps_route_folder (context : QueryContext) (p : Pipeline) (path : String)
    (codec : CodecRef) :
    Keeps Workspace.results (Destination.route context p (.folder path codec)) := by
  refine .bind (fun _ => rfl) fun writer => .bind (fun _ => rfl) fun w => ?_
  have writing : Keeps Workspace.results (do
      let token := (← get).tokens.size
      modify fun w => { w with tokens := w.tokens.derive context.token }
      return QueryOutput.files (← onRun ((PartWriter.collector path writer token).run p)) :
      Action QueryError QueryOutput) := by
    refine .bind (fun _ => rfl)
      fun w => .bind (fun _ => rfl) fun _ => .bind (keeps_onRun ?_) fun _ => .pure _
    exact (keeps_collector path writer _).run p
  cases w.store.containerExists path with
  | true => exact writing
  | false => exact .bind (fun _ => rfl) fun _ => writing

theorem keeps_pipeline? (context : QueryContext) (origin : Origin) :
    Keeps Workspace.view (origin.pipeline? context) := by
  cases origin with
  | resultSet name => exact .bind (keeps_onRun keeps_openCollection) fun _ => .pure _
  | data path codec => exact .bind (fun _ => rfl) fun _ => .bind (fun _ => rfl) fun _ => .pure _

theorem Segment.keeps_writeAll (folder : String) (n : Nat) (parts : List (List Row)) :
    ∀ job ∈ Segment.writeAll folder n parts, Keeps Workspace.results job := by
  induction parts generalizing n with
  | nil => exact fun _ h => nomatch h
  | cons part parts ih => exact List.forall_mem_cons.2 ⟨keeps_onStore _, ih (n + 1)⟩

theorem keeps_persist (persistDir : String) (tier : Tier) (p : Pipeline) :
    Keeps Workspace.results (p.persist persistDir tier) := by
  apply Keeps.bind (fun _ => rfl)
  intro parts
  cases tier with
  | memory => exact .pure _
  | disk =>
    refine .bind keeps_drawId fun id => .bind (keeps_onStore _) fun _ => .bind ?_ fun _ => .pure _
    exact .runAll (Segment.keeps_writeAll _ 0 parts)

namespace Destination

variable (context : QueryContext) (p : Pipeline) (name : String) (w : Workspace)

theorem route_resultSet_cases {opened : ResultSets}
    (hopened : (w.results.openAs .persisted ResultSets.queryCollection).2 = opened) :
    (∃ e, (w.results.openAs .persisted ResultSets.queryCollection).1 = .error e ∧
      route context p (.resultSet name) w = (.error (.run e), { w with results := opened })) ∨
    (∃ e w', p.persist context.config.persistDir context.tier { w with results := opened }
      = (.error e, w') ∧
      route context p (.resultSet name) w = (.error (.run e), w')) ∨
    ∃ kept w', p.persist context.config.persistDir context.tier { w with results := opened }
      = (.ok kept, w') ∧
      opened.opens ∧
      route context p (.resultSet name) w
        = (.ok .memory, { w' with
            results := w'.results.upsert .persisted ResultSets.queryCollection name kept }) := by
  have opens := w.results.opens_openAs
  have asked := onRun_openCollection w
  cases hopen : w.results.openAs .persisted ResultSets.queryCollection with
  | mk result results =>
    rw [hopen] at hopened asked opens
    obtain rfl : results = opened := hopened
    cases result with
    | error e =>
      rw [route, run_bind_error asked]
      exact .inl ⟨e, rfl, rfl⟩
    | ok entries =>
      rw [route, run_bind_ok asked, run_bind, onRun]
      cases p.persist context.config.persistDir context.tier { w with results } with
      | mk result w' =>
        cases result with
        | error e => exact .inr (.inl ⟨e, w', rfl, rfl⟩)
        | ok kept => exact .inr (.inr ⟨kept, w', rfl, opens.2 ⟨entries, by rw [hopen]⟩, rfl⟩)

end Destination

/-- A query into a result set keeps its rows as they are when it runs, and nothing when they cannot
be computed. -/
theorem route_resultSet {context : QueryContext} (memory : context.tier = .memory) (p : Pipeline)
    (name : String) {w : Workspace} (opens : w.results.opens) :
    (∃ parts, p.partitions w.store = .ok parts ∧
      (Destination.route context p (.resultSet name) w).1 = .ok .memory ∧
      (Destination.route context p (.resultSet name) w).2.results.opens ∧
      ∀ other, (Destination.route context p (.resultSet name) w).2.results.persisted? other
        = if other = name then some (.memory parts p.parallelism) else w.results.persisted? other) ∨
    ∃ e, p.partitions w.store = .error e ∧
      (Destination.route context p (.resultSet name) w).1 = .error (.run e) ∧
      (Destination.route context p (.resultSet name) w).2.view = w.view := by
  generalize hopened : (w.results.openAs .persisted ResultSets.queryCollection).2 = opened
  have view : opened.view = w.results.view := by rw [← hopened, w.results.view_openAs]
  rcases Destination.route_resultSet_cases context p name w hopened with
    ⟨e, refused, -⟩ | ⟨e, w', ran, routed⟩ | ⟨kept, w', ran, opens', routed⟩
  · obtain ⟨entries, found⟩ := opens
    cases refused.symm.trans found
  · rw [memory, persist_memory] at ran
    cases hp : p.partitions w.store with
    | ok parts =>
      simp only [hp] at ran
      cases ran
    | error fault =>
      simp only [hp] at ran
      cases ran
      rw [routed]
      exact .inr ⟨e, rfl, rfl, view⟩
  · rw [memory, persist_memory] at ran
    cases hp : p.partitions w.store with
    | error fault =>
      simp only [hp] at ran
      cases ran
    | ok parts =>
      simp only [hp] at ran
      cases ran
      rw [routed]
      refine .inl ⟨parts, rfl, rfl, ResultSets.opens_upsert opens' name _, fun other => ?_⟩
      rw [← ResultSets.persisted?_of_view view]
      exact ResultSets.persisted?_upsert opens' name _ other

end RowQuery
