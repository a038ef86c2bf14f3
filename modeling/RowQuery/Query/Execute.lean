import RowQuery.Pipeline.Persist
import RowQuery.Query.PartFile
import RowQuery.Query.Plan

/-!
Executing statements. What a query cannot do is refused before its origin is looked for, and its
terms are compiled before any row is read.
-/

namespace RowQuery

structure QueryContext where
  config : EngineConfig
  catalog : Catalog := .standard
  compile : Compiler := Term.compile
  tier : Tier
  token : Nat

inductive QueryOutput
  | files : List WrittenFile → QueryOutput
  | memory : QueryOutput
  | array : List Row → QueryOutput
  deriving DecidableEq

def onRun {α : Type} (action : Action RunError α) : Action QueryError α := fun w =>
  match action w with
  | (.ok a, w) => (.ok a, w)
  | (.error e, w) => (.error (.run e), w)

def onQueryData {α : Type} : Except DataError α → Except QueryError α
  | .ok a => .ok a
  | .error e => .error (.data e)

def onQueryStore {α : Type} (action : StoreAction α) : Action QueryError α := fun w =>
  let (result, store) := action w.store
  (onQueryData result, { w with store })

def checked {α : Type} (result : Except QueryError α) : Action QueryError α :=
  ExceptT.mk (return result)

/-- An object comes before a container of its name. -/
def dataSource? (store : Store) (path : String) (decoder : Decoder) : Option Source :=
  if store.objectExists path then some (.objects [path] decoder)
  else if store.containerExists path then some (.objects (store.list path) decoder)
  else none

/-- The rows that a query starts from. The codec is looked up before the data. -/
def Origin.pipeline? (context : QueryContext) : Origin → Action QueryError (Option Pipeline)
  | resultSet name => do
    let entries ← onRun (Workspace.openCollection .persisted ResultSets.queryCollection)
    return (NameMap.get? entries name).map Persisted.pipeline
  | data path codec => do
    let decoder ← checked (onQueryData (context.catalog.decoder codec.name codec.options))
    let store := (← get).store
    return (dataSource? store path decoder).map fun source =>
      Pipeline.ofSource source context.config.defaultParallelism

def Destination.route (context : QueryContext) (p : Pipeline) :
    Destination → Action QueryError QueryOutput
  | resultSet name => do
    let _ ← onRun (Workspace.openCollection .persisted ResultSets.queryCollection)
    let rows ← onRun (p.persist context.config.persistDir context.tier)
    modify fun w =>
      { w with results := w.results.upsert .persisted ResultSets.queryCollection name rows }
    return .memory
  | folder path codec => do
    let writer ← checked (onQueryData (context.catalog.writer codec.name codec.options))
    unless (← get).store.containerExists path do
      onQueryStore (Store.createContainer path)
    let token := (← get).tokens.size
    modify fun w => { w with tokens := w.tokens.derive context.token }
    return .files (← onRun ((PartWriter.collector path writer token).run p))

def Query.refusal? (q : Query) : Option UnsupportedQuery :=
  if !q.joins.isEmpty then some .join
  else if !q.groupBy.isEmpty then some .groupBy
  else none

def Query.execute (context : QueryContext) (q : Query) : Action QueryError QueryOutput :=
  match q.refusal? with
  | some refusal => throw (.unsupported refusal)
  | none => do
    match ← q.source.origin.pipeline? context with
    | none => throw (.sourceNotFound q.source.origin.describe)
    | some p =>
      let stages ← checked (q.stages context.compile)
      let p := { p with stages := p.stages ++ stages }
      match q.destination with
      | some destination => destination.route context p
      | none => return .array (← onRun (ExceptT.mk (return p.rows (← get).store)))

def Statement.execute (context : QueryContext) : Statement → Action QueryError QueryOutput
  | query q => q.execute context
  | s => throw (.unsupported (.statement s.kind))

end RowQuery
