import RowQuery.Proofs.Engine.ResultSets
import RowQuery.Proofs.Engine.Workspace
import RowQuery.Proofs.Pipeline.Unpartitioned
import RowQuery.Query.Execute

/-!
The rows of an origin as one list, and what the stages of a query make of them. How the engine cuts
them into parts, and into how many, is not seen in it.
-/

namespace RowQuery

def Persisted.rows? (store : Store) : Persisted → Option (List Row)
  | memory parts _ => some parts.flatten
  | disk segments _ =>
    (segments.mapM fun segment : Segment => (segment.load store).toOption).map List.flatten

def Store.objects? (store : Store) (path : String) : Option (List String) :=
  if store.objectExists path then some [path]
  else if store.containerExists path then some (store.list path)
  else none

namespace Origin

def rows? (context : QueryContext) (w : Workspace) : Origin → Option (List Row)
  | resultSet name => (w.results.persisted? name).bind (Persisted.rows? w.store)
  | data path codec => do
    let decoder ← (context.catalog.decoder codec.name codec.options).toOption
    let paths ← w.store.objects? path
    (paths.mapM fun path => ((w.store.read path).bind decoder.decode).toOption).map List.flatten

end Origin

theorem toOption_rows_persisted (store : Store) (kept : Persisted) :
    ((Source.persisted kept).rows store).toOption = kept.rows? store := by
  rw [toOption_source_rows]
  cases kept with
  | memory parts parallelism => exact gathered_rows store parts
  | disk segments parallelism =>
    rw [Source.units, gathered, List.mapM_map]
    rfl

theorem toOption_rows_objects (store : Store) (paths : List String) (decoder : Decoder) :
    ((Source.objects paths decoder).rows store).toOption
      = (paths.mapM fun path => ((store.read path).bind decoder.decode).toOption).map
        List.flatten := by
  rw [toOption_source_rows, Source.units, gathered, List.mapM_map]
  simp only [Function.comp_def, SourceUnit.load, toOption_onData]
  rfl

theorem dataSource?_eq (store : Store) (path : String) (decoder : Decoder) :
    dataSource? store path decoder = (store.objects? path).map
      fun paths => .objects paths decoder := by
  rw [dataSource?, Store.objects?]
  split
  · rfl
  · split <;> rfl

theorem toOption_rows_new (store : Store) (source : Source) (parallelism : Nat)
    {stages : List Stage} (standard : ∀ stage ∈ stages, stage.IsStandard) :
    (({ Pipeline.new source parallelism with stages } : Pipeline).rows store).toOption
      = (source.rows store).toOption.bind fun rows => (runStages stages rows).toOption := by
  rw [toOption_rows standard, Pipeline.unpartitioned, toOption_bind]
  rfl

theorem onRun_openCollection (w : Workspace) :
    onRun (Workspace.openCollection .persisted ResultSets.queryCollection) w
      = match w.results.openAs .persisted ResultSets.queryCollection with
        | (.ok entries, results) => (.ok entries, { w with results })
        | (.error e, results) => (.error (.run e), { w with results }) := by
  rw [onRun, Workspace.openCollection]
  cases w.results.openAs .persisted ResultSets.queryCollection with
  | mk result results => cases result <;> rfl

namespace Origin

variable (context : QueryContext) (w : Workspace)

theorem pipeline?_resultSet (name : String) :
    pipeline? context (.resultSet name) w
        = match w.results.openAs .persisted ResultSets.queryCollection with
      | (.ok entries, results) =>
        (.ok ((NameMap.get? entries name).map Persisted.pipeline), { w with results })
      | (.error e, results) => (.error (.run e), { w with results }) := by
  rw [pipeline?, run_bind, onRun_openCollection]
  cases w.results.openAs .persisted ResultSets.queryCollection with
  | mk result results => cases result <;> rfl

theorem toOption_pipeline?_resultSet (name : String) :
    (pipeline? context (.resultSet name) w).2.store = w.store ∧
    (pipeline? context (.resultSet name) w).1.toOption.join
      = (w.results.persisted? name).map Persisted.pipeline := by
  rw [← w.results.get?_openAs name, pipeline?_resultSet]
  cases w.results.openAs .persisted ResultSets.queryCollection with
  | mk result results => cases result <;> exact ⟨rfl, rfl⟩

theorem pipeline?_of_opens {w : Workspace} (opens : w.results.opens) (name : String) :
    (pipeline? context (.resultSet name) w).1
      = .ok ((w.results.persisted? name).map Persisted.pipeline) := by
  obtain ⟨entries, found⟩ := opens
  have seen := w.results.get?_openAs name
  rw [found] at seen
  rw [← seen, pipeline?_resultSet]
  cases hopen : w.results.openAs .persisted ResultSets.queryCollection with
  | mk result results =>
    rw [hopen] at found
    cases found
    rfl

theorem pipeline?_data (path : String) (codec : CodecRef) :
    pipeline? context (.data path codec) w
        = (match context.catalog.decoder codec.name codec.options with
      | .error fault => (.error (.data fault), w)
      | .ok decoder => (.ok ((w.store.objects? path).map fun paths =>
          Pipeline.ofSource (.objects paths decoder) context.config.defaultParallelism), w)) := by
  rw [pipeline?]
  cases context.catalog.decoder codec.name codec.options with
  | error fault => rfl
  | ok decoder =>
    have sources := congrArg
      (Option.map fun source => Pipeline.ofSource source context.config.defaultParallelism)
      (dataSource?_eq w.store path decoder)
    rw [Option.map_map] at sources
    exact congrArg (fun found => (Except.ok found, w)) sources

theorem toOption_rows_pipeline? (origin : Origin) {stages : List Stage}
    (standard : ∀ stage ∈ stages, stage.IsStandard) :
    (origin.pipeline? context w).2.store = w.store ∧
    ((origin.pipeline? context w).1.toOption.join.bind fun p =>
        (({ p with stages := p.stages ++ stages } : Pipeline).rows w.store).toOption)
      = (origin.rows? context w).bind fun rows => (runStages stages rows).toOption := by
  cases origin with
  | resultSet name =>
    obtain ⟨store, found⟩ := toOption_pipeline?_resultSet context w name
    refine ⟨store, ?_⟩
    rw [found, rows?]
    cases w.results.persisted? name with
    | none => rfl
    | some kept =>
      have run := toOption_rows_new w.store (.persisted kept) kept.parallelism standard
      rw [toOption_rows_persisted] at run
      exact run
  | data path codec =>
    rw [pipeline?_data, rows?]
    cases context.catalog.decoder codec.name codec.options with
    | error fault => exact ⟨rfl, rfl⟩
    | ok decoder =>
      refine ⟨rfl, ?_⟩
      cases w.store.objects? path with
      | none => rfl
      | some paths =>
        have run := toOption_rows_new w.store (.objects paths decoder)
          ((Source.objects paths decoder).impliedParallelism?.getD
            context.config.defaultParallelism) standard
        rw [toOption_rows_objects] at run
        exact run

end Origin

end RowQuery
